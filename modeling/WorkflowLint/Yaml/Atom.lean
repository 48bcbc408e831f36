import WorkflowLint.Calendar
import WorkflowLint.Json.Reader

/-!
# Atoms

The values of YAML documents that have no parts.  Atoms are the keys of mappings and the members of
sets; as keys, numbers that are equal are the same.
-/

namespace WorkflowLint.Yaml

/-- A value without parts. -/
inductive Atom where
  | null
  | bool (b : Bool)
  | integer (n : Int)
  | real (x : Binary64)
  | string (s : Text)
  | bytes (b : List UInt8)
  | date (d : Date)
  | timestamp (t : Timestamp)
deriving DecidableEq

namespace Atom

instance : Inhabited Atom := ⟨.null⟩

/-- Whether two whole or real numbers, or truth values counted as numbers, are equal; what is not a
number equals nothing. -/
def sameNumber : Atom → Atom → Option Bool
  | .bool a, .bool b => some (a == b)
  | .bool a, .integer n => some ((if a then 1 else 0) == n)
  | .integer n, .bool a => some ((if a then 1 else 0) == n)
  | .bool a, .real x => some (x.equalsInt (if a then 1 else 0))
  | .real x, .bool a => some (x.equalsInt (if a then 1 else 0))
  | .integer m, .integer n => some (m == n)
  | .integer n, .real x => some (x.equalsInt n)
  | .real x, .integer n => some (x.equalsInt n)
  | .real x, .real y => some (x != .nan && x.same y)
  | _, _ => none

/-- Whether two atoms are the same key. -/
def sameKey (a b : Atom) : Bool :=
  match a, b with
  | .null, .null => true
  | .string s, .string t => s == t
  | .bytes s, .bytes t => s == t
  | .date d, .date e => d == e
  | .timestamp s, .timestamp t => s.same t
  | _, _ => (sameNumber a b).getD false

/-- The text that an atom is. -/
def text? : Atom → Option Text
  | .string s => some s
  | _ => none

/-- Whether an atom is the given text. -/
def isText (t : Text) (a : Atom) : Bool := a.text? == some t

/-- The atoms that count as absent: null, false, zero and whatever is empty. -/
def isBlank : Atom → Bool
  | .null => true
  | .bool b => !b
  | .integer n => n == 0
  | .real x => x.isZero
  | .string s => s.isEmpty
  | .bytes b => b.isEmpty
  | _ => false

/-- The least whole number with more digits than can be written. -/
def tooLong : Nat := Nat.pow 10 Json.digitLimit

/-- Whether an atom has too many digits to be written in base ten.  Such a number can only be read
in another base. -/
def isTooLong : Atom → Bool
  | .integer n => decide (tooLong ≤ n.natAbs)
  | _ => false

end Atom
end WorkflowLint.Yaml
