import WorkflowLint.Decimal.Layout
import WorkflowLint.Json.Value

/-!
# Writing JSON

A document is written with one item or member a line, indented by two spaces a level, and a line
feed at the end.  Empty arrays and objects are written on one line.  Only quotes, backslashes and
the controls below the space are escaped.
-/

namespace WorkflowLint.Json

/-- A code point inside a written string. -/
def writtenUnit (c : CodePoint) : Text :=
  if c = .char '"' then "\\\""
  else if c = .char '\\' then "\\\\"
  else if c = .char '\n' then "\\n"
  else if c = .char '\r' then "\\r"
  else if c = .char '\t' then "\\t"
  else if c = .char '\x0c' then "\\f"
  else if c = .char '\x08' then "\\b"
  else if c.val < 0x20 then "\\u" ++ Text.ofNatPadded 16 4 c.val
  else [c]

/-- A written string. -/
def writeString (s : Text) : Text := Text.ofChar '"' ++ s.flatMap writtenUnit ++ Text.ofChar '"'

/-- The start of a line at a level. -/
def newLine (level : Nat) : Text := .char '\n' :: Text.spaces (2 * level)

mutual

/-- A value whose first line starts at a level. -/
def write (level : Nat) : Json → Text
  | .null => "null"
  | .bool true => "true"
  | .bool false => "false"
  | .integer n => Text.ofInt n
  | .real x => RealLayout.json.render x
  | .string s => writeString s
  | .array [] => "[]"
  | .array (item :: items) =>
    "[" ++ newLine (level + 1) ++ write (level + 1) item ++ writeItems (level + 1) items
      ++ newLine level ++ "]"
  | .object [] => "\x7b\x7d"
  | .object ((name, value) :: members) =>
    "\x7b" ++ newLine (level + 1) ++ writeString name ++ ": " ++ write (level + 1) value
      ++ writeMembers (level + 1) members ++ newLine level ++ "\x7d"

/-- The items after the first one. -/
def writeItems (level : Nat) : List Json → Text
  | [] => []
  | item :: items => "," ++ newLine level ++ write level item ++ writeItems level items

/-- The members after the first one. -/
def writeMembers (level : Nat) : List (Text × Json) → Text
  | [] => []
  | (name, value) :: members =>
    "," ++ newLine level ++ writeString name ++ ": " ++ write level value
      ++ writeMembers level members

end

/-- A document. -/
def print (v : Json) : Text := write 0 v ++ "\n"

end WorkflowLint.Json
