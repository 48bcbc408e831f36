import WorkflowLint.Check.Registry
import WorkflowLint.Finding.Options
import WorkflowLint.Finding.Result
import WorkflowLint.Run.Fixing
import WorkflowLint.Workflow.Parse

/-!
# Validating a workflow file

`validateWorkflow` runs the checks of graphs and of contents on one file.  A file that is missing,
unreadable or no workflow gives a single finding that says so, whatever rules are selected.
-/

namespace WorkflowLint

/-! ## What ends a run early -/

/-- The defects that keep a file or a project from being checked. -/
inductive Obstacle where
  | fileNotFound
  | fileUnreadable
  | notAWorkflow
  | projectNotFound
  | projectUnreadable
deriving DecidableEq

namespace Obstacle

/-- The rule under which a defect is reported. -/
def rule : Obstacle → Text
  | .fileNotFound => "FILE-NOT-FOUND"
  | .fileUnreadable => "FILE-UNREADABLE"
  | .notAWorkflow => "WORKFLOW-PARSE"
  | .projectNotFound => "PROJECT-NOT-FOUND"
  | .projectUnreadable => "PROJECT-UNREADABLE"

/-- The finding that reports a defect. -/
def finding (o : Obstacle) (path message : Text) (line : Option Int) : Finding where
  rule := o.rule
  severity := .must
  path := path
  message := message
  line := line

end Obstacle

/-! ## Findings of a run -/

/-- The findings of which an option's rules make a choice, taken strictly if it says so. -/
def Options.choose (o : Options) (findings : List Finding) : List Finding :=
  Finding.escalate o.strict (Finding.select o.rules o.excludeRules findings)

/-- The findings without those that can be mended and whose rules are given. -/
def dropFixed (rules : List Text) (findings : List Finding) : List Finding :=
  findings.filter fun f => !(f.fixable && rules.contains f.rule)

/-- The rules of the findings that can be mended. -/
def fixableRules (findings : List Finding) : List Text :=
  (findings.filter Finding.fixable).map (·.rule)

/-- The findings of the checks of graphs and of contents on a workflow file. -/
def Registry.examine (r : Registry) (path t : Text) (g : Workflow.Graph) : List Finding :=
  r.graph.flatMap (GraphCheck.runIsolated g ⟨path, g.nodeLines⟩)
    ++ r.content.flatMap (ContentCheck.runIsolated t path)

/-- Why a file cannot be checked: the finding that says so, or a fault. -/
inductive Unchecked where
  | finding (f : Finding)
  | fault (f : Fault)

/-- The text and the graph of the workflow file at an absolute path. -/
def readWorkflow (s : Store) (path : Text) : Except Unchecked (Text × Workflow.Graph) :=
  if !s.isFile path then
    .error <| .finding <|
      Obstacle.fileNotFound.finding path ("Workflow file not found: " ++ path) none
  else
    match s.read path with
    | .error e =>
      .error <| .finding <|
        Obstacle.fileUnreadable.finding path ("Cannot read workflow file: " ++ e.message) none
    | .ok t =>
      match Workflow.Graph.parse t with
      | .ok g => .ok (t, g)
      | .error (.invalid e) =>
        .error <| .finding <|
          Obstacle.notAWorkflow.finding path ("Failed to parse workflow: " ++ e.message)
            (e.line?.map Int.ofNat)
      | .error (.tooManyDigits n) => .error (.fault (.tooManyDigits n))

/-- Validates the workflow file at a path. -/
def validateWorkflow (r : Registry) (o : Options) (path : Text) : Job Result := do
  let store := (← get).store
  let path := store.absolute path
  match readWorkflow store path with
  | .error (.fault f) => throw f
  | .error (.finding f) => return ⟨[f], [path]⟩
  | .ok (t, g) =>
    let findings := o.choose (r.examine path t g)
    if !o.wantsFixes then return ⟨findings, [path]⟩
    let fixed ← Fixing.apply path findings o.dryRun
    if fixed.applied = 0 ∨ o.dryRun then return ⟨findings, [path]⟩
    return ⟨dropFixed (fixableRules findings) findings, [path]⟩

end WorkflowLint
