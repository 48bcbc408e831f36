import WorkflowLint.Decimal.Binary64
import WorkflowLint.Keyed
import WorkflowLint.Text.Basic

/-!
# JSON values

The values of JSON documents.  Whole numbers and reals are told apart, as the documents do, and an
object keeps its members in the order in which their names first occurred; a name that occurs again
gives its member a new value.
-/

namespace WorkflowLint

/-- A JSON value. -/
inductive Json where
  | null
  | bool (b : Bool)
  | integer (n : Int)
  | real (x : Binary64)
  | string (s : Text)
  | array (items : List Json)
  | object (members : List (Text × Json))

namespace Json

/-- The members of an object. -/
abbrev Members := List (Text × Json)

instance : Inhabited Json := ⟨.null⟩

namespace Members

/-- The value of the member with a name. -/
def get? (ms : Members) (name : Text) : Option Json := Keyed.get? name ms

/-- Gives the member with a name a value: in its place, or at the end if there is none. -/
def set (ms : Members) (name : Text) (value : Json) : Members := Keyed.set name value ms

/-- Leaves out the members with a name. -/
def erase (ms : Members) (name : Text) : Members := ms.filter fun m => m.1 != name

/-- The members that a sequence of names and values makes, later values replacing earlier ones. -/
def ofPairs (pairs : List (Text × Json)) : Members := Keyed.ofPairs pairs

/-- The text that is the value of a member. -/
def text? (ms : Members) (name : Text) : Option Text :=
  match ms.get? name with
  | some (.string s) => some s
  | _ => none

/-- The text, not empty, that is the value of a member. -/
def fullText? (ms : Members) (name : Text) : Option Text :=
  (ms.text? name).filter fun s => !s.isEmpty

end Members

/-- The values that count as absent: null, false, zero and whatever is empty. -/
def isBlank : Json → Bool
  | .null => true
  | .bool b => !b
  | .integer n => n == 0
  | .real x => x.isZero
  | .string s => s.isEmpty
  | .array items => items.isEmpty
  | .object members => members.isEmpty

/-- A value, unless it counts as absent. -/
def present? (v : Option Json) : Option Json := v.filter fun v => !v.isBlank

/-- The members of an object. -/
def members? : Json → Option Members
  | .object ms => some ms
  | _ => none

/-- The items of an array. -/
def items? : Json → Option (List Json)
  | .array items => some items
  | _ => none

/-- Whether a value is the given text. -/
def isText (t : Text) : Json → Bool
  | .string s => s == t
  | _ => false

end Json
end WorkflowLint
