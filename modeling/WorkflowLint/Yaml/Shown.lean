import WorkflowLint.Calendar.Shown
import WorkflowLint.Decimal.Layout
import WorkflowLint.Text.Quoted
import WorkflowLint.Yaml.Graph

/-!
# Values inside messages

A value that a message quotes can be of any kind.  A text stands as it is; inside a collection it
is quoted, and dates and times are spelled out by their parts.  A collection inside itself is shown
as its brackets around dots.
-/

namespace WorkflowLint

namespace Yaml

namespace Atom

/-- An atom inside a collection. -/
def quoted : Atom → Text
  | .null => "None"
  | .bool b => if b then "True" else "False"
  | .integer n => Text.ofInt n
  | .real x => RealLayout.message.render x
  | .string s => s.quoted
  | .bytes b => Text.quotedBytes b
  | .date d => d.shown
  | .timestamp t => t.shown

/-- An atom in a message. -/
def shown : Atom → Text
  | .string s => s
  | .date d => d.iso
  | .timestamp t => t.iso " "
  | a => a.quoted

/-- The name of an atom's kind in messages. -/
def kindName : Atom → Text
  | .null => "NoneType"
  | .bool _ => "bool"
  | .integer _ => "int"
  | .real _ => "float"
  | .string _ => "str"
  | .bytes _ => "bytes"
  | .date _ => "datetime.date"
  | .timestamp _ => "datetime.datetime"

end Atom

/-- The name of an object's kind in messages. -/
def Object.kindName : Object → Text
  | .atom a => a.kindName
  | .list _ => "list"
  | .pair _ _ => "tuple"
  | .set _ => "set"
  | .mapping _ => "dict"

namespace Value

mutual

/-- A value inside a collection. -/
def quoted : Value → Text
  | .atom a => a.quoted
  | .list items => "[" ++ Text.join ", " (quotedItems items) ++ "]"
  | .pair first second => "(" ++ quoted first ++ ", " ++ quoted second ++ ")"
  | .set [] => "set()"
  | .set members => "\x7b" ++ Text.join ", " (members.map Atom.quoted) ++ "\x7d"
  | .mapping entries => "\x7b" ++ Text.join ", " (quotedEntries entries) ++ "\x7d"
  | .cycle isMapping => if isMapping then "\x7b...\x7d" else "[...]"

/-- The items of a collection. -/
def quotedItems : List Value → List Text
  | [] => []
  | item :: items => quoted item :: quotedItems items

/-- The entries of a mapping. -/
def quotedEntries : List (Atom × Value) → List Text
  | [] => []
  | (key, value) :: entries => (key.quoted ++ ": " ++ quoted value) :: quotedEntries entries

end

/-- A value in a message. -/
def shown : Value → Text
  | .atom a => a.shown
  | v => v.quoted

end Value
end Yaml

/-- A JSON value in a message. -/
def Json.shown (v : Json) : Text := (Yaml.Value.ofJson v).shown

/-- A JSON value inside a shown collection. -/
def Json.quoted (v : Json) : Text := (Yaml.Value.ofJson v).quoted

end WorkflowLint
