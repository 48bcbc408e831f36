import WorkflowLint.Yaml.Lexeme

/-!
# Scalars as they are written

A scalar is written plainly, between quotes, or as a block of lines.  In all three forms a line
break inside the scalar is folded: alone it counts as a space, and of several the first is dropped;
only the lines of a literal block keep their breaks.

The readers take the cursor at the first code point of the scalar.  Plain scalars and blocks end
where the indentation does, so they are told the least column at which their lines may start.
-/

namespace WorkflowLint.Yaml

/-- What a line break and the empty lines after it count for: `first` is the break that ended the
line, and `later` are those of the empty lines. -/
def foldedBreaks (first later : Text) : Text :=
  if first ≠ Text.ofChar '\n' then first ++ later
  else if later.isEmpty then Text.ofChar ' '
  else later

/-- The text of parts that were read from left to right, the last one being the first. -/
def joined (parts : List Text) : Text := parts.reverse.flatten

/-! ## Plain scalars -/

/-- Whether a plain scalar ends before the text ahead; inside brackets more code points end it. -/
def endsPlain (inFlow : Bool) (t : Text) : Bool :=
  match t with
  | [] => true
  | c :: rest =>
    isBreak c || isSpaceOrTab c
      || (c == .char ':' && rest.head?.all fun next =>
        isBreak next || isSpaceOrTab next || (inFlow && isOneOf ",[]\x7b\x7d" next))
      || (inFlow && isOneOf ",?[]\x7b\x7d" c)

/-- The part of a plain scalar up to the next blank or its end. -/
def plainRun (inFlow : Bool) : Text → Text
  | [] => []
  | c :: t => if endsPlain inFlow (c :: t) then [] else c :: plainRun inFlow t

/-- The breaks of empty lines and the spaces before, between and after them; there are none if a
separator of documents follows. -/
def emptyLines : (fuel : Nat) → (read : Text) → Cursor → Reading (Option Text)
  | 0, read, c => .ok (some read, c)
  | fuel + 1, read, c =>
    if c.at? ' ' then emptyLines fuel read c.next
    else if c.atBreak then
      let (lineBreak, c) := c.lineBreak
      match c.separates with
      | .error e => .error e
      | .ok true => .ok (none, c)
      | .ok false => emptyLines fuel (read ++ lineBreak) c
    else .ok (some read, c)

/-- What the blanks between two parts of a plain scalar count for, empty if no part can follow,
with whether they had a line break. -/
def plainBlanks (c : Cursor) : Reading (Text × Bool) :=
  let (spaces, c) := c.span (· == .char ' ')
  if !c.atBreak then .ok ((spaces, false), c)
  else
    let (first, c) := c.lineBreak
    match c.separates with
    | .error e => .error e
    | .ok true => .ok (([], true), c)
    | .ok false =>
      match emptyLines c.left [] c with
      | .error e => .error e
      | .ok (none, c) => .ok (([], true), c)
      | .ok (some later, c) => .ok ((foldedBreaks first later, true), c)

/-- A plain scalar, the place where its text ends, and whether a line break came after it. -/
structure PlainScalar where
  text : Text
  stop : Mark
  brokeLine : Bool

/-- Reads the parts of a plain scalar after those in `read`, the last of which are blanks that were
read at `stop`, with a line break if `broke` holds. -/
def readPlainFrom (inFlow : Bool) (minColumn : Nat) : (fuel : Nat) → (read : List Text) →
    (stop : Mark) → (broke : Bool) → Cursor → Reading PlainScalar
  | 0, read, stop, broke, c => .ok (⟨joined read.tail, stop, broke⟩, c)
  | fuel + 1, read, stop, broke, c =>
    let run := if c.at? '#' then [] else plainRun inFlow c.ahead
    let c' := c.advance run.length
    c'.upTo (if c'.at? ':' then 1 else 0) <|
      if run.isEmpty then .ok (⟨joined read.tail, stop, broke⟩, c)
      else
        match plainBlanks c' with
        | .error e => .error e
        | .ok ((blanks, broke), after) =>
          if blanks.isEmpty || after.at? '#' || (!inFlow && after.mark.column < minColumn) then
            .ok (⟨joined (run :: read), c'.mark, broke⟩, after)
          else readPlainFrom inFlow minColumn fuel (blanks :: run :: read) c'.mark broke after

/-- Reads a plain scalar. -/
def readPlain (inFlow : Bool) (minColumn : Nat) (c : Cursor) : Reading PlainScalar :=
  readPlainFrom inFlow minColumn (c.left + 1) [] c.mark false c

/-! ## Quoted scalars -/

/-- The context of the defects of quoted scalars. -/
def quotedContext : Text := "while scanning a quoted scalar"

/-- The context of the defects of escapes. -/
def escapeContext : Text := "while scanning a double-quoted scalar"

/-- What an escape of one code point stands for. -/
def escaped? : CodePoint → Option CodePoint
  | .char '0' => some (.char '\x00')
  | .char 'a' => some (.char '\x07')
  | .char 'b' => some (.char '\x08')
  | .char 't' => some (.char '\t')
  | .char '\t' => some (.char '\t')
  | .char 'n' => some (.char '\n')
  | .char 'v' => some (.char '\x0b')
  | .char 'f' => some (.char '\x0c')
  | .char 'r' => some (.char '\r')
  | .char 'e' => some (.char '\x1b')
  | .char ' ' => some (.char ' ')
  | .char '"' => some (.char '"')
  | .char '\\' => some (.char '\\')
  | .char '/' => some (.char '/')
  | .char 'N' => some (.char '\u0085')
  | .char '_' => some (.char '\u00a0')
  | .char 'L' => some (.char '\u2028')
  | .char 'P' => some (.char '\u2029')
  | _ => none

/-- The number of hexadecimal digits of an escape that gives the number of a code point. -/
def escapeWidth? : CodePoint → Option Nat
  | .char 'x' => some 2
  | .char 'u' => some 4
  | .char 'U' => some 8
  | _ => none

/-- Reads the number of a code point in an escape. -/
def readEscapedNumber (start : Mark) (width : Nat) (c : Cursor) : Reading CodePoint :=
  let isHex (ch : CodePoint) : Bool := ch.hexValue?.isSome
  let digits := (c.ahead.take width).takeWhile isHex
  if digits.length < width then
    c.fail escapeContext start
      ("expected escape sequence of " ++ Text.ofNat width ++ " hexadecimal numbers, but found "
        ++ c.found digits.length) digits.length
  else
    let n := Text.toNatBase 16 digits
    if n < 0x110000 then .ok (.ofNat n, c.advance width)
    else
      let fault : Fault :=
        if n < 0x80000000 then .value "chr() arg not in range(0x110000)"
        else ⟨"OverflowError", "Python int too large to convert to C int"⟩
      c.upTo (width - 1) (.error (.fault fault))

/-- Reads the breaks of empty lines inside a quoted scalar, and the blanks around them. -/
def quotedBreaks (start : Mark) : (fuel : Nat) → (read : Text) → Cursor → Reading Text
  | 0, read, c => .ok (read, c)
  | fuel + 1, read, c =>
    match c.separates with
    | .error e => .error e
    | .ok true => c.fail quotedContext start "found unexpected document separator"
    | .ok false =>
      let c := c.skip isSpaceOrTab
      if c.atBreak then
        let (lineBreak, c) := c.lineBreak
        quotedBreaks start fuel (read ++ lineBreak) c
      else .ok (read, c)

/-- Reads the breaks of empty lines that follow a line break. -/
def readQuotedBreaks (start : Mark) (c : Cursor) : Reading Text :=
  quotedBreaks start (c.left + 1) [] c

/-- Reads the blanks between two parts of a quoted scalar. -/
def readQuotedBlanks (start : Mark) (c : Cursor) : Reading Text :=
  let (spaces, c) := c.span isSpaceOrTab
  if c.ahead.isEmpty then c.fail quotedContext start "found unexpected end of stream"
  else if c.atBreak then
    let (first, c) := c.lineBreak
    match readQuotedBreaks start c with
    | .error e => .error e
    | .ok (later, c) => .ok (foldedBreaks first later, c)
  else .ok (spaces, c)

/-- Reads an escape, the backslash being behind the cursor. -/
def readEscape (start : Mark) (c : Cursor) : Reading Text :=
  match c.peek.bind escaped? with
  | some ch => .ok ([ch], c.next)
  | none =>
    match c.peek.bind escapeWidth? with
    | some width =>
      match readEscapedNumber start width c.next with
      | .error e => .error e
      | .ok (ch, c) => .ok ([ch], c)
    | none =>
      if c.atBreak then readQuotedBreaks start c.lineBreak.2
      else c.fail escapeContext start ("found unknown escape character " ++ c.found)

/-- Reads a quoted scalar up to and with the closing quote, after the parts in `read`. -/
def readQuotedFrom (quote : Char) (start : Mark) : (fuel : Nat) → (read : List Text) → Cursor →
    Reading Text
  | 0, read, c => .ok (joined read, c)
  | fuel + 1, read, c =>
    let (run, c) := c.span fun ch => !(isBreak ch || isOneOf "'\"\\ \t" ch)
    let read := run :: read
    if c.at? quote then
      if quote = '\'' ∧ c.peek 1 = some (.char '\'') then
        readQuotedFrom quote start fuel (Text.ofChar '\'' :: read) (c.advance 2)
      else .ok (joined read, c.next)
    else if quote = '"' ∧ c.at? '\\' then
      match readEscape start c.next with
      | .error e => .error e
      | .ok (ch, c) => readQuotedFrom quote start fuel (ch :: read) c
    else if c.peek.any (isOneOf "'\"\\") then
      readQuotedFrom quote start fuel (c.ahead.take 1 :: read) c.next
    else
      match readQuotedBlanks start c with
      | .error e => .error e
      | .ok (blanks, c) => readQuotedFrom quote start fuel (blanks :: read) c

/-- Reads a scalar between quotes. -/
def readQuoted (quote : Char) (c : Cursor) : Reading Text :=
  readQuotedFrom quote c.mark (c.left + 1) [] c.next

/-! ## Blocks of lines -/

/-- The context of the defects of blocks. -/
def blockContext : Text := "while scanning a block scalar"

/-- What becomes of the line breaks at the end of a block. -/
inductive Chomping where
  | strip
  | clip
  | keep
deriving DecidableEq

/-- Reads how the end of a block is treated, if that is said. -/
def readChomping? (c : Cursor) : Option Chomping × Cursor :=
  if c.at? '+' then (some .keep, c.next)
  else if c.at? '-' then (some .strip, c.next)
  else (none, c)

/-- Reads by how much a block is indented, if that is said. -/
def readIncrement? (start : Mark) (c : Cursor) : Reading (Option Nat) :=
  match c.peek.filter CodePoint.isDigit with
  | none => .ok (none, c)
  | some d =>
    if d = .char '0' then
      c.fail blockContext start "expected indentation indicator in the range 1-9, but found 0"
    else .ok (some d.digitValue, c.next)

/-- Reads both indicators, in either order, and the rest of their line. -/
def readBlockHeader (start : Mark) (c : Cursor) : Reading (Chomping × Option Nat) :=
  let (before, c) := readChomping? c
  match readIncrement? start c with
  | .error e => .error e
  | .ok (increment, c) =>
    let (after, c) := if before.isNone ∧ increment.isSome then readChomping? c else (none, c)
    if !c.atSpaceBreakOrEnd then
      c.fail blockContext start
        ("expected chomping or indentation indicators, but found " ++ c.found)
    else
      match readLineRest blockContext start c with
      | .error e => .error e
      | .ok c => .ok (((before.or after).getD .clip, increment), c)

/-- The breaks of empty lines, the place after the last one, and what is known of the cursor. -/
structure BlockBreaks where
  text : Text
  stop : Mark
  cursor : Cursor

/-- The empty lines at the start of a block, with the greatest column that its spaces reach. -/
def leadingLines : (fuel : Nat) → (reached : Nat) → BlockBreaks → Nat × BlockBreaks
  | 0, reached, b => (reached, b)
  | fuel + 1, reached, b =>
    if b.cursor.at? ' ' then
      let c := b.cursor.next
      leadingLines fuel (max reached c.mark.column) { b with cursor := c }
    else if b.cursor.atBreak then
      let (lineBreak, c) := b.cursor.lineBreak
      leadingLines fuel reached ⟨b.text ++ lineBreak, c.mark, c⟩
    else (reached, b)

/-- The cursor after the spaces before a column. -/
def skipIndentation (column : Nat) (c : Cursor) : Cursor :=
  c.advance ((c.ahead.take (column - c.mark.column)).takeWhile (· == .char ' ')).length

/-- The empty lines between the lines of a block that is indented to a column. -/
def blockBreaksFrom (column : Nat) : (fuel : Nat) → BlockBreaks → BlockBreaks
  | 0, b => b
  | fuel + 1, b =>
    if b.cursor.atBreak then
      let (lineBreak, c) := b.cursor.lineBreak
      blockBreaksFrom column fuel ⟨b.text ++ lineBreak, c.mark, skipIndentation column c⟩
    else b

/-- The empty lines at the cursor. -/
def blockBreaks (column : Nat) (c : Cursor) : BlockBreaks :=
  blockBreaksFrom column c.left ⟨[], c.mark, skipIndentation column c⟩

/-- A block scalar and the place where it ends. -/
structure BlockScalar where
  text : Text
  stop : Mark

/-- Reads the lines of a block after the parts in `read`, with the empty lines before them; the line
break before these is `lineBreak`. -/
def blockLines (folded : Bool) (chomping : Chomping) (column : Nat) : (fuel : Nat) →
    (read : List Text) → (lineBreak : Text) → BlockBreaks → BlockScalar × Cursor
  | 0, read, _, b => (⟨joined read, b.stop⟩, b.cursor)
  | fuel + 1, read, lineBreak, b =>
    let hasLine (c : Cursor) : Bool := c.mark.column == column && !c.ahead.isEmpty
    let startsBlank (c : Cursor) : Bool := c.peek.any isSpaceOrTab
    let c := b.cursor
    if hasLine c then
      let (line, after) := c.span fun ch => !isBreak ch
      let (nextBreak, after) := after.lineBreak
      let next := blockBreaks column after
      let joint : Text :=
        if !hasLine next.cursor then []
        else if folded ∧ nextBreak = Text.ofChar '\n' ∧ !startsBlank c
            ∧ !startsBlank next.cursor then
          if next.text.isEmpty then Text.ofChar ' ' else []
        else nextBreak
      blockLines folded chomping column fuel (joint :: line :: b.text :: read) nextBreak next
    else
      let tail : Text :=
        match chomping with
        | .strip => []
        | .clip => lineBreak
        | .keep => lineBreak ++ b.text
      (⟨joined (tail :: read), b.stop⟩, c)

/-- Reads a block of lines, folded or not. -/
def readBlockScalar (folded : Bool) (minColumn : Nat) (c : Cursor) : Reading BlockScalar :=
  match readBlockHeader c.mark c.next with
  | .error e => .error e
  | .ok ((chomping, increment), c) =>
    let least := max minColumn 1
    let (column, b) :=
      match increment with
      | some n => (least + n - 1, blockBreaks (least + n - 1) c)
      | none =>
        let (reached, b) := leadingLines c.left 0 ⟨[], c.mark, c⟩
        (max least reached, b)
    .ok (blockLines folded chomping column (c.left + 1) [] [] b)

end WorkflowLint.Yaml
