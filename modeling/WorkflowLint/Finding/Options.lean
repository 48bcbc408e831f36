import WorkflowLint.Finding.Basic

/-!
# Options of a run

Which rules count, whether findings are taken strictly, and whether fixes are wanted.
-/

namespace WorkflowLint

/-- The options of a run. -/
structure Options where
  strict : Bool := false
  rules : List Text := []
  excludeRules : List Text := []
  fix : Bool := false
  dryRun : Bool := false
  skipWorkflows : Bool := false

namespace Options

/-- The options for the files of a project, to which skipping them does not apply. -/
def forChild (o : Options) : Options := { o with skipWorkflows := false }

/-- Whether fixes are wanted, if only to be listed. -/
def wantsFixes (o : Options) : Bool := o.fix || o.dryRun

end Options

namespace Finding

/-- Whether a rule is selected; names are compared without regard to case, and an empty list of
rules selects all. -/
def selected (rules excludeRules : List Text) (rule : Text) : Bool :=
  let among (names : List Text) : Bool := names.any fun n => n.upper == rule.upper
  (rules.isEmpty || among rules) && !among excludeRules

/-- The findings whose rules are selected. -/
def select (rules excludeRules : List Text) (findings : List Finding) : List Finding :=
  findings.filter fun f => selected rules excludeRules f.rule

/-- A finding taken strictly: what should be mended must be. -/
def hardened (f : Finding) : Finding :=
  match f.severity with
  | .should => f.withSeverity .must
  | _ => f

/-- The findings, taken strictly if that is asked for. -/
def escalate (strict : Bool) (findings : List Finding) : List Finding :=
  if strict then findings.map hardened else findings

/-- The findings grouped by the files they are on, in the order in which these occur first. -/
def byFile (findings : List Finding) : List (Text × List Finding) :=
  Keyed.groupBy (fun f => f.path) findings

end Finding
end WorkflowLint
