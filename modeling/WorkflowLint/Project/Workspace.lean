import WorkflowLint.Project.Settings
import WorkflowLint.Store.Folder

/-!
# Workspaces

A workspace is what a run works on: the settings that hold and the files that there are.  The
settings say where a project keeps its configuration and its workflow files.
-/

namespace WorkflowLint

/-- The settings that hold and the files that there are. -/
structure Workspace where
  settings : Settings
  store : Store

namespace Workspace

/-- The path of the configuration file of the project in a folder. -/
def configPath (w : Workspace) (folder : Text) : Text := Path.child folder w.settings.configFile

/-- The folder that the workflow files of a project should be in. -/
def workflowsPath (w : Workspace) (folder : Text) : Text := Path.join folder w.settings.workflowsDir

/-- Whether a project has a folder for workflow files. -/
def hasWorkflows (w : Workspace) (folder : Text) : Bool :=
  w.store.isFolder (w.workflowsPath folder)

/-- Whether a name has the ending of workflow files. -/
def isWorkflowName (w : Workspace) (name : Text) : Bool := w.settings.suffix.isSuffixOf name

/-- The paths of the workflow files of a project, in the order of their names. -/
def workflowFiles (w : Workspace) (folder : Text) : Except Fault (List Text) := do
  let dir := w.workflowsPath (w.store.absolute folder)
  let names ← w.store.list dir
  return (names.filter w.isWorkflowName).map fun name => w.store.absolute (Path.join dir name)

end Workspace
end WorkflowLint
