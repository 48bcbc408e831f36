import WorkflowLint.Project.Document
import WorkflowLint.Run.Workflow

/-!
# Validating a project

`validateProject` runs the checks of projects on a folder and validates every workflow file of the
project.  What is found on a file keeps its place; its message starts with the name of the file.
-/

namespace WorkflowLint

/-- Applies the fixes of findings on a project, file by file; findings that can be mended are
dropped if fixes of their rules were applied. -/
def fixProject (o : Options) (findings : List Finding) : Job (List Finding) := do
  let groups := Finding.byFile findings
  let results ← Fixing.applyAll groups o.dryRun
  if o.dryRun then return findings
  let fixedGroups := (groups.zip results).filter fun p => decide (0 < p.2.applied)
  return dropFixed (fixedGroups.flatMap fun p => fixableRules p.1.2) findings

/-- The findings of the checks of projects on a folder, after fixes. -/
def projectFindings (r : Registry) (o : Options) (folder : Text) : Job (List Finding) := do
  let w ← get
  let findings := o.choose (r.project.flatMap (ProjectCheck.runIsolated w folder))
  if o.wantsFixes then fixProject o findings else return findings

/-- The result of a workflow file as part of that of its project. -/
def Result.ofFile (path : Text) (r : Result) : Result :=
  { r with findings := r.findings.map (Finding.prefixed ("[" ++ Path.base path ++ "] ")) }

/-- Validates the workflow files of the project in a folder. -/
def validateFiles (r : Registry) (o : Options) (paths : List Text) : Job (List Result) :=
  paths.mapM fun path => return (← validateWorkflow r o.forChild path).ofFile path

/-- Validates the project in a folder. -/
def validateProject (r : Registry) (o : Options) (folder : Text) : Job Result := do
  let folder := (← get).store.absolute folder
  if !(← get).store.isFolder folder then
    return ⟨[Obstacle.projectNotFound.finding folder ("Project folder not found: " ++ folder) none],
      [folder]⟩
  let own ← projectFindings r o folder
  if o.skipWorkflows then return ⟨o.choose own, [folder]⟩
  match (← get).workflowFiles folder with
  | .error f =>
    let obstacle :=
      Obstacle.projectUnreadable.finding folder ("Cannot list workflow files: " ++ f.text) none
    return ⟨o.choose own ++ [obstacle], [folder]⟩
  | .ok paths =>
    let results ← validateFiles r o paths
    return ⟨o.choose (own ++ results.flatMap Result.findings),
      folder :: results.flatMap Result.files⟩

end WorkflowLint
