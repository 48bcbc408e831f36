import WorkflowLint.Json.Value

/-!
# Equality of documents

Whether an edit changed a document is a matter of its values: the order of an object's members does
not count, and numbers are equal when their values are, truth values counting as zero and one.
-/

namespace WorkflowLint.Json

/-- Whether two values that are not collections are equal. -/
def sameScalar : Json → Json → Bool
  | .null, .null => true
  | .string s, .string t => s == t
  | .bool a, .bool b => a == b
  | .bool a, .integer n => (if a then 1 else 0) == n
  | .integer n, .bool a => (if a then 1 else 0) == n
  | .bool a, .real x => x.equalsInt (if a then 1 else 0)
  | .real x, .bool a => x.equalsInt (if a then 1 else 0)
  | .integer m, .integer n => m == n
  | .integer n, .real x => x.equalsInt n
  | .real x, .integer n => x.equalsInt n
  | .real x, .real y => x.same y
  | _, _ => false

mutual

/-- Whether two values are equal. -/
def same : Json → Json → Bool
  | .array items, v =>
    match v with
    | .array others => sameItems items others
    | _ => false
  | .object members, v =>
    match v with
    | .object others => members.length == others.length && sameMembers members others
    | _ => false
  | a, b => sameScalar a b

/-- Whether two arrays have equal items. -/
def sameItems : List Json → List Json → Bool
  | [], [] => true
  | a :: items, b :: others => same a b && sameItems items others
  | _, _ => false

/-- Whether each member has an equal one among others. -/
def sameMembers : List (Text × Json) → Members → Bool
  | [], _ => true
  | (name, value) :: members, others =>
    (match others.get? name with
      | some other => same value other
      | none => false) && sameMembers members others

end

end WorkflowLint.Json
