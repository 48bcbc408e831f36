import WorkflowLint.Text.Utf8

/-!
# Paths

A path is a text of names between slashes.  A path that starts with a slash is absolute; exactly two
slashes at the start are kept apart from one.  Besides names, `.` stands for the folder itself and
`..` for the folder around it.

Where files are looked up a path is a sequence of bytes, of which it can have only so many.
-/

namespace WorkflowLint.Path

/-- The slash between names. -/
def slash : CodePoint := .char '/'

/-- The name of a folder within itself. -/
def here : Text := "."

/-- The name of the folder around a folder. -/
def up : Text := ".."

/-- Whether a path is absolute. -/
def isAbsolute (p : Text) : Bool := p.head? == some slash

/-- The slashes that an absolute path starts with, as far as they count. -/
def root (p : Text) : Text :=
  match (p.takeWhile (· == slash)).length with
  | 0 => []
  | 2 => [slash, slash]
  | _ => [slash]

/-- The names of a path, without those that stand for the same folder. -/
def names (p : Text) : List Text := (p.parts slash).filter fun n => !n.isEmpty && n != here

/-- A path of names, or the sign for the same folder if there are none. -/
def ofNames (root : Text) (names : List Text) : Text :=
  let p := root ++ Text.join [slash] names
  if p.isEmpty then here else p

/-- A path without what means nothing: doubled slashes and the sign for the same folder. -/
def clean (p : Text) : Text := ofNames (root p) (names p)

/-- Adds a name to names in reverse order; a step up takes the name before it away, and at the root
it does nothing. -/
def pushName (absolute : Bool) (reversed : List Text) (name : Text) : List Text :=
  if name ≠ up then name :: reversed
  else
    match reversed with
    | [] => if absolute then [] else [up]
    | last :: rest => if last = up then up :: reversed else rest

/-- A clean path without steps up, except at its start if it is not absolute. -/
def normalise (p : Text) : Text :=
  ofNames (root p) ((names p).foldl (pushName (isAbsolute p)) []).reverse

/-- The second path as seen from the first. -/
def join (p q : Text) : Text :=
  if isAbsolute q then q
  else if p.isEmpty ∨ p.getLast? = some slash then p ++ q
  else p ++ slash :: q

/-- A path as an absolute one in normal form, `current` being the current folder. -/
def absolute (current p : Text) : Text := normalise (if isAbsolute p then p else join current p)

/-- What stands after the last slash. -/
def base (p : Text) : Text := p.afterLast slash

/-- A clean path to the second path as seen from the first. -/
def child (p q : Text) : Text := clean (join p q)

/-- The last name of a path without its extension.  A dot at either end of the name starts no
extension. -/
def stem (p : Text) : Text :=
  let name := ((names p).getLast?).getD []
  let tail := (name.reverse.takeWhile (· != .char '.')).length
  if 0 < tail ∧ tail + 1 < name.length then name.take (name.length - tail - 1) else name

/-! ## Paths as bytes -/

/-- Whether a code point is one of the surrogates that stand for single bytes in paths, `U+DC80` to
`U+DCFF`. -/
def isByte (c : CodePoint) : Bool := decide (0xDC80 ≤ c.val) && decide (c.val ≤ 0xDCFF)

/-- The surrogates of a path that stand for no bytes, `offset` code points having come before. -/
def misplacedFrom? : (offset : Nat) → Text → Option SurrogateError
  | _, [] => none
  | offset, c :: p =>
    if c.isSurrogate && !isByte c then
      some ⟨offset, 1 + (p.takeWhile CodePoint.isSurrogate).length, c⟩
    else misplacedFrom? (offset + 1) p

/-- The first surrogates of a path that stand for no bytes. -/
def misplaced? (p : Text) : Option SurrogateError := misplacedFrom? 0 p

/-- The number of bytes of a path. -/
def byteLength (p : Text) : Nat :=
  p.foldl (fun n c => n + if isByte c then 1 else (Utf8.encodeNat c.val).length) 0

/-- The most bytes that a path can have. -/
def longestPath : Nat := 4095

/-- The most bytes that a name can have. -/
def longestName : Nat := 255

end WorkflowLint.Path
