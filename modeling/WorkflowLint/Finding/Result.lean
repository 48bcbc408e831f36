import WorkflowLint.Finding.Basic

/-!
# Results

The findings of a run with what follows from them: how many there are of each severity, how many
can be mended, and whether the run found the files valid.
-/

namespace WorkflowLint

/-- How many findings there are of each severity, and how many can be mended. -/
structure Summary where
  must : Nat
  should : Nat
  nit : Nat
  fixable : Nat
deriving DecidableEq

namespace Summary

/-- The number of findings with a severity. -/
def count (s : Severity) (findings : List Finding) : Nat :=
  findings.countP fun f => f.severity == s

/-- The summary of some findings. -/
def of (findings : List Finding) : Summary :=
  ⟨count .must findings, count .should findings, count .nit findings,
    findings.countP Finding.fixable⟩

/-- The number of findings. -/
def total (s : Summary) : Nat := s.must + s.should + s.nit

/-- The summary as a document. -/
def toJson (s : Summary) : Json :=
  .object [("must", .integer s.must), ("should", .integer s.should), ("nit", .integer s.nit),
    ("fixable", .integer s.fixable)]

end Summary

/-- The findings of a run and the files that it looked at. -/
structure Result where
  findings : List Finding
  files : List Text

namespace Result

/-- The summary of the findings. -/
def summary (r : Result) : Summary := .of r.findings

/-- Whether nothing that must be mended was found. -/
def valid (r : Result) : Bool := r.summary.must == 0

/-- The findings of a rule, whose name is compared without regard to case. -/
def findingsFor (r : Result) (rule : Text) : List Finding :=
  r.findings.filter fun f => f.rule.upper == rule.upper

/-- The result as a document. -/
def toJson (r : Result) : Json :=
  .object [("valid", .bool r.valid), ("findings", .array (r.findings.map Finding.toJson)),
    ("summary", r.summary.toJson), ("filesValidated", .array (r.files.map Json.string))]

end Result
end WorkflowLint
