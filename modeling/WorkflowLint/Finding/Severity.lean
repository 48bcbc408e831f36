import WorkflowLint.Fault
import WorkflowLint.Text.Blank
import WorkflowLint.Text.Case
import WorkflowLint.Text.Quoted

/-!
# Severities

How serious a finding is.  A finding that must be mended makes a result invalid.
-/

namespace WorkflowLint

/-- How serious a finding is. -/
inductive Severity where
  | must
  | should
  | nit
deriving DecidableEq

namespace Severity

/-- The name of a severity. -/
def name : Severity → Text
  | .must => "must"
  | .should => "should"
  | .nit => "nit"

/-- More serious findings have a higher rank. -/
def rank : Severity → Nat
  | .must => 2
  | .should => 1
  | .nit => 0

/-- The severities, the most serious first. -/
def all : List Severity := [.must, .should, .nit]

/-- The severity with a name, case and blanks around it being ignored. -/
def parse (t : Text) : Except Fault Severity :=
  let word := t.strip.lower
  match all.find? fun s => s.name == word with
  | some s => .ok s
  | none => .error (.value (word.quoted ++ " is not a valid Severity"))

end Severity
end WorkflowLint
