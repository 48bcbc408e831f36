import WorkflowLint.Text.Base64
import WorkflowLint.Yaml.Tag
import WorkflowLint.Yaml.Atom
import WorkflowLint.Yaml.Cursor
import WorkflowLint.Decimal.Layout

/-!
# How scalars are written

Which form a scalar gets when a value is written: plain if it reads back as the same value that way,
else between single quotes if that keeps its blanks and breaks, else between double quotes.  Bytes
are written as a block of lines.
-/

namespace WorkflowLint.Yaml

/-- A scalar to be written: its tag, its text, and whether it is to be a block of lines. -/
structure Scalar where
  tag : Tag
  text : Text
  asLines : Bool := false

/-- The forms of a scalar. -/
inductive ScalarStyle where
  | plain
  | singleQuoted
  | doubleQuoted
  | lines
deriving DecidableEq

namespace Scalar

/-- The scalar that an atom is written as. -/
def ofAtom : Atom → Scalar
  | .null => ⟨.null, "null", false⟩
  | .bool b => ⟨.bool, if b then "true" else "false", false⟩
  | .integer n => ⟨.integer, Text.ofInt n, false⟩
  | .real x => ⟨.real, RealLayout.yaml.render x, false⟩
  | .string s => ⟨.string, s, false⟩
  | .bytes b => ⟨.binary, Base64.lines b, true⟩
  | .date d => ⟨.timestamp, d.iso, false⟩
  | .timestamp t => ⟨.timestamp, t.iso " ", false⟩

/-- The tag as it is written. -/
def shortTag (tag : Tag) : Text :=
  match Text.afterStart? Tag.standard tag.name with
  | some rest => "!!" ++ rest
  | none => tag.name

/-! ## Properties of a text -/

/-- Whether a line ends at a code point of a scalar; a carriage return is escaped instead. -/
def isLineEnd (c : CodePoint) : Bool := isBreak c && c != .char '\r'

/-- Whether a text has more than one line. -/
def hasLineEnd (t : Text) : Bool := t.any isLineEnd

/-- Whether a code point has to be escaped wherever it stands. -/
def isSpecial (c : CodePoint) : Bool :=
  let n := c.val
  !(c == .char '\n' || (decide (0x20 ≤ n) && decide (n ≤ 0x7E)) || n == 0x85
    || (decide (0xA0 ≤ n) && decide (n ≤ 0xD7FF))
    || (decide (0xE000 ≤ n) && decide (n ≤ 0xFFFD) && n != 0xFEFF)
    || (decide (0x10000 ≤ n) && decide (n < 0x10FFFF)))

/-- Whether two code points of two classes stand next to each other. -/
def hasPair (p q : CodePoint → Bool) : Text → Bool
  | a :: b :: t => (p a && q b) || hasPair p q (b :: t)
  | _ => false

/-- Whether a blank or the end is ahead. -/
def atGap (t : Text) : Bool :=
  t.head?.all fun c => isBreak c || isSpaceOrTab c || c == .char '\x00'

/-- Whether something in a text after its first code point ends a plain scalar. -/
def hasIndicator : (previous : CodePoint) → Text → Bool
  | _, [] => false
  | previous, c :: t =>
    (c == .char ':' && atGap t) || (c == .char '#' && atGap [previous]) || hasIndicator c t

/-- Whether a text cannot be plain because of what it starts with or what stands in it. -/
def meansMore (t : Text) : Bool :=
  match t with
  | [] => false
  | c :: rest =>
    List.isPrefixOf ("---" : Text) t || List.isPrefixOf ("..." : Text) t
      || List.contains ("#,[]\x7b\x7d&*!|>'\"%@\x60" : Text) c
      || (List.contains ("?:-" : Text) c && atGap rest)
      || hasIndicator c rest

/-- A space. -/
def isSpace (c : CodePoint) : Bool := c == .char ' '

/-- Whether a text has something at its ends, or within, that only double quotes keep. -/
def needsEscapes (t : Text) : Bool := t.any isSpecial || hasPair isSpace isLineEnd t

/-- Whether a text can stand without quotes. -/
def allowsPlain (t : Text) : Bool :=
  let isEdge (c : CodePoint) : Bool := isSpace c || isLineEnd c
  !(t.head?.any isEdge || t.getLast?.any isEdge || hasLineEnd t || needsEscapes t || meansMore t)

/-- Whether a text can stand between single quotes. -/
def allowsSingleQuotes (t : Text) : Bool := !(needsEscapes t || hasPair isLineEnd isSpace t)

/-- Whether a text can be a block of lines. -/
def allowsLines (t : Text) : Bool := !(t.isEmpty || needsEscapes t || t.getLast?.any isSpace)

/-! ## Choice -/

/-- Whether a scalar that is written plainly reads back with the same tag. -/
def readsBack (s : Scalar) : Bool := Tag.ofPlain s.text == s.tag

/-- The style of a scalar.  Keys that are written before a colon on their line have one line. -/
def style (s : Scalar) (isKey : Bool) : ScalarStyle :=
  if s.asLines then if !isKey ∧ allowsLines s.text then .lines else .doubleQuoted
  else if s.readsBack ∧ allowsPlain s.text ∧ !(isKey && s.text.isEmpty) then .plain
  else if allowsSingleQuotes s.text ∧ !(isKey && hasLineEnd s.text) then .singleQuoted
  else .doubleQuoted

/-- Whether the tag has to be written. -/
def needsTag (s : Scalar) (style : ScalarStyle) : Bool :=
  if style = .plain then !s.readsBack else s.tag != .string

/-- Whether a key can stand before the colon on its line; `extra` is the length of its anchor. -/
def isShortKey (s : Scalar) (extra : Nat) : Bool :=
  decide (extra + (shortTag s.tag).length + s.text.length < 128) && !s.text.isEmpty
    && !hasLineEnd s.text

end Scalar
end WorkflowLint.Yaml
