import WorkflowLint.Check.Info
import WorkflowLint.Project.Config

/-!
# Registries

A registry holds the checks of a run, the checks of each kind in the order in which they were
registered.  Checks run in that order, those of graphs before those of contents.

`GraphCheck.runIsolated` and its like run a check so that a fault costs no more than the findings of
that check: it is reported by a finding of its own.
-/

namespace WorkflowLint

/-- A check of the graph of a workflow. -/
structure GraphCheck where
  info : CheckInfo
  run : Workflow.Graph → CheckContext → Except Fault (List Finding)

/-- A check of the text of a workflow file, given its path. -/
structure ContentCheck where
  info : CheckInfo
  run : (text path : Text) → Except Fault (List Finding)

/-- A check of the project in a folder. -/
structure ProjectCheck where
  info : CheckInfo
  run : Workspace → (folder : Text) → Except Fault (List Finding)

/-- A check of any kind. -/
inductive AnyCheck where
  | graph (c : GraphCheck)
  | content (c : ContentCheck)
  | project (c : ProjectCheck)

namespace AnyCheck

/-- The description of a check. -/
def info : AnyCheck → CheckInfo
  | .graph c => c.info
  | .content c => c.info
  | .project c => c.info

/-- The kind of a check. -/
def kind : AnyCheck → CheckKind
  | .graph _ => .graph
  | .content _ => .content
  | .project _ => .project

/-- The description of a check as a document. -/
def toJson (c : AnyCheck) : Json := c.info.toJson c.kind

end AnyCheck

/-! ## Running checks -/

/-- The findings of a check of a graph. -/
def GraphCheck.runIsolated (g : Workflow.Graph) (context : CheckContext) (c : GraphCheck) :
    List Finding :=
  isolated .graph c.info.id context.path (c.run g context)

/-- The findings of a check of a text. -/
def ContentCheck.runIsolated (t path : Text) (c : ContentCheck) : List Finding :=
  isolated .content c.info.id path (c.run t path)

/-- The findings of a check of a project. -/
def ProjectCheck.runIsolated (w : Workspace) (folder : Text) (c : ProjectCheck) : List Finding :=
  isolated .project c.info.id folder (c.run w folder)

/-! ## Registries -/

/-- The checks of a run. -/
structure Registry where
  graph : List GraphCheck := []
  content : List ContentCheck := []
  project : List ProjectCheck := []

namespace Registry

/-- Adds a check after those of its kind. -/
def register (r : Registry) : AnyCheck → Registry
  | .graph c => { r with graph := r.graph ++ [c] }
  | .content c => { r with content := r.content ++ [c] }
  | .project c => { r with project := r.project ++ [c] }

/-- The registry of some checks. -/
def ofChecks (checks : List AnyCheck) : Registry := checks.foldl register {}

/-- All checks, kind by kind. -/
def all (r : Registry) : List AnyCheck :=
  r.graph.map .graph ++ r.content.map .content ++ r.project.map .project

/-- The number of checks. -/
def size (r : Registry) : Nat := r.graph.length + r.content.length + r.project.length

/-- The first check of a rule, whose name is compared without regard to case. -/
def get? (r : Registry) (rule : Text) : Option AnyCheck :=
  r.all.find? fun c => c.info.id.upper == rule.upper

/-- The descriptions of all checks. -/
def describe (r : Registry) : List Json := r.all.map AnyCheck.toJson

/-- The fault of registering what is no check, `shown` being how messages show it. -/
def notACheck (shown : Text) : Fault := ⟨"TypeError", "Not a check: " ++ shown⟩

end Registry
end WorkflowLint
