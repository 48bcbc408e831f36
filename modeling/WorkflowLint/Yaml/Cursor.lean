import WorkflowLint.Text.Basic

/-!
# Places in a YAML text

A cursor is the text that lies ahead together with its length and its place: offset, line and
column, all counted from zero.  Loops over the text are bounded by what is left of it.  Besides the
line feed and the carriage return, three code points of Unicode end a line.

A text may have a barrier, behind which it cannot be read.  The functions on cursors take no account
of it: whoever draws conclusions from the text ahead has to ask, with `barrierWithin?`, whether it
can be read as far as they need it.
-/

namespace WorkflowLint.Yaml

/-- A place in a text. -/
structure Mark where
  index : Nat
  line : Nat
  column : Nat
deriving DecidableEq

/-- Why a text cannot be read from the offset `start` on: a code point that is not allowed stands at
`offset`. -/
structure Barrier where
  start : Nat
  codePoint : CodePoint
  offset : Nat
deriving DecidableEq

/-- The text ahead, how long it is, and its place, with the barrier of the text. -/
structure Cursor where
  ahead : Text
  left : Nat
  mark : Mark
  barrier : Option Barrier
  left_eq : left = ahead.length

/-- The code points that end a line. -/
def isBreak (c : CodePoint) : Bool :=
  c == .char '\n' || c == .char '\r' || c.val == 0x85 || c.val == 0x2028 || c.val == 0x2029

/-- A space or a tab. -/
def isSpaceOrTab (c : CodePoint) : Bool := c == .char ' ' || c == .char '\t'

namespace Cursor

/-- The start of a text. -/
def start (t : Text) (barrier : Option Barrier) : Cursor := ⟨t, t.length, ⟨0, 0, 0⟩, barrier, rfl⟩

/-- The barrier, if it comes before the code point that is some places ahead or at it. -/
def barrierWithin? (c : Cursor) (n : Nat) : Option Barrier :=
  c.barrier.filter fun b => b.start ≤ c.mark.index + n

/-- The code point ahead, or the one some places further on; there is none at the end. -/
def peek (c : Cursor) (n : Nat := 0) : Option CodePoint := c.ahead[n]?

/-- Whether a code point is ahead. -/
def at? (c : Cursor) (ch : Char) : Bool := c.peek == some (.char ch)

/-- Whether the end or a line break is some places ahead. -/
def atBreakOrEnd (c : Cursor) (n : Nat := 0) : Bool := (c.peek n).all isBreak

/-- Whether the end, a line break or a space is ahead. -/
def atSpaceBreakOrEnd (c : Cursor) (n : Nat := 0) : Bool :=
  (c.peek n).all fun ch => isBreak ch || ch == .char ' '

/-- Whether the end, a line break, a space or a tab is ahead. -/
def atBlankOrEnd (c : Cursor) (n : Nat := 0) : Bool :=
  (c.peek n).all fun ch => isBreak ch || isSpaceOrTab ch

/-- Whether a line break is ahead. -/
def atBreak (c : Cursor) : Bool := c.peek.any isBreak

/-- The place after a code point, `rest` being the text after it.  A byte order mark takes no
column, and a carriage return before a line feed ends no line of its own. -/
def moved (m : Mark) (ch : CodePoint) (rest : Text) : Mark :=
  if ch = .char '\r' ∧ rest.head? = some (.char '\n') then ⟨m.index + 1, m.line, m.column + 1⟩
  else if isBreak ch then ⟨m.index + 1, m.line + 1, 0⟩
  else if ch = .char '\uFEFF' then ⟨m.index + 1, m.line, m.column⟩
  else ⟨m.index + 1, m.line, m.column + 1⟩

/-- The cursor after one code point. -/
def next (c : Cursor) : Cursor :=
  match h : c.ahead with
  | [] => c
  | ch :: rest => ⟨rest, c.left - 1, moved c.mark ch rest, c.barrier, by simp [c.left_eq, h]⟩

/-- The cursor after some code points. -/
def advance : (n : Nat) → Cursor → Cursor
  | 0, c => c
  | n + 1, c => advance n c.next

/-- The code points of a class ahead, and the cursor after them. -/
def span (p : CodePoint → Bool) (c : Cursor) : Text × Cursor :=
  let run := c.ahead.takeWhile p
  (run, c.advance run.length)

/-- The cursor after the code points of a class. -/
def skip (p : CodePoint → Bool) (c : Cursor) : Cursor := (c.span p).2

/-- The cursor after the spaces ahead. -/
def skipSpaces (c : Cursor) : Cursor := c.skip (· == .char ' ')

/-- The cursor after a comment, if one is ahead. -/
def skipComment (c : Cursor) : Cursor := if c.at? '#' then c.skip fun ch => !isBreak ch else c

/-- The line break ahead as it counts in a scalar, and the cursor after it.  The two separators of
Unicode stand for themselves, all other breaks for a line feed. -/
def lineBreak (c : Cursor) : Text × Cursor :=
  match c.ahead with
  | .char '\r' :: .char '\n' :: _ => (Text.ofChar '\n', c.advance 2)
  | ch :: _ =>
    if ch.val = 0x2028 ∨ ch.val = 0x2029 then ([ch], c.next)
    else if isBreak ch then (Text.ofChar '\n', c.next)
    else ([], c)
  | [] => ([], c)

/-- Whether the same character is ahead three times. -/
def atTriple (ch : Char) (c : Cursor) : Bool := c.ahead.take 3 == List.replicate 3 (.char ch)

/-- Whether three given code points and then a blank or the end are ahead, which separates
documents if it starts a line. -/
def atSeparator (ch : Char) (c : Cursor) : Bool := c.atTriple ch && c.atBlankOrEnd 3

/-- Whether a separator of documents is ahead. -/
def atDocumentSeparator (c : Cursor) : Bool := c.atSeparator '-' || c.atSeparator '.'

/-- How far ahead it shows whether a separator of documents is there: what follows three characters
matters only if they could be one. -/
def separatorReach (c : Cursor) : Nat := if c.atTriple '-' || c.atTriple '.' then 3 else 2

end Cursor
end WorkflowLint.Yaml
