import WorkflowLint.Json.Value
import WorkflowLint.Yaml.Atom

/-!
# YAML values

The value of a YAML document as a tree.  A collection that is part of itself is cut off where it
occurs inside itself, which is recorded as a `cycle`.

Mappings have their entries in order and at most one for each key.
-/

namespace WorkflowLint.Yaml

/-- A YAML value.  A `cycle` stands for one of the lists or mappings around it. -/
inductive Value where
  | atom (a : Atom)
  | list (items : List Value)
  | pair (first second : Value)
  | set (members : List Atom)
  | mapping (entries : List (Atom × Value))
  | cycle (isMapping : Bool)

namespace Value

instance : Inhabited Value := ⟨.atom .null⟩

/-- The null value. -/
def null : Value := .atom .null

/-- A text as a value. -/
def string (t : Text) : Value := .atom (.string t)

mutual

/-- A JSON value as a YAML value. -/
def ofJson : Json → Value
  | .null => .null
  | .bool b => .atom (.bool b)
  | .integer n => .atom (.integer n)
  | .real x => .atom (.real x)
  | .string s => .string s
  | .array items => .list (ofItems items)
  | .object members => .mapping (ofMembers members)

/-- The items of an array. -/
def ofItems : List Json → List Value
  | [] => []
  | item :: items => ofJson item :: ofItems items

/-- The members of an object. -/
def ofMembers : List (Text × Json) → List (Atom × Value)
  | [] => []
  | (name, value) :: members => (.string name, ofJson value) :: ofMembers members

end

mutual

/-- Whether a whole number in a value has too many digits to be written. -/
def hasTooLong : Value → Bool
  | .atom a => a.isTooLong
  | .list items => anyTooLong items
  | .pair first second => hasTooLong first || hasTooLong second
  | .set members => members.any Atom.isTooLong
  | .mapping entries => anyEntryTooLong entries
  | .cycle _ => false

/-- Whether one of some values has a number with too many digits. -/
def anyTooLong : List Value → Bool
  | [] => false
  | v :: items => hasTooLong v || anyTooLong items

/-- Whether one of some entries has a number with too many digits. -/
def anyEntryTooLong : List (Atom × Value) → Bool
  | [] => false
  | (key, value) :: entries => key.isTooLong || hasTooLong value || anyEntryTooLong entries

end

end Value
end WorkflowLint.Yaml
