import WorkflowLint.Check.Info
import WorkflowLint.Project.Document

/-!
# Declared workflow files

The workflow files that a configuration declares are those that there are (CONFIG-WORKFLOWS), and
each of them is JSON (JSON-VALID).
-/

namespace WorkflowLint.Check.ConfigWorkflows

/-- The description of the check. -/
def info : CheckInfo where
  id := "CONFIG-WORKFLOWS"
  name := "workflow_imports"
  severity := .must
  description := "Every workflow file must be listed in workflow_files and exist on disk"
  details := ↑(
    "Keep workflow_files in sync with the workflows folder; "
    ++ "workflow files must be valid JSON")
  category := some "config"

/-- The rule of findings on files that are not JSON. -/
def jsonRule : Text := "JSON-VALID"

/-- The finding on a project without a folder for workflow files. -/
def missingFolder (w : Workspace) (folder : Text) : Finding :=
  let dir := w.settings.workflowsDir
  { rule := info.id
    severity := .must
    path := folder
    message := "Missing " ++ dir ++ "/ folder"
    detail := some ("Create a " ++ dir ++ "/ folder and add your workflow JSON files") }

/-- The finding on a workflow file that is not JSON or cannot be read. -/
def fileFinding? (w : Workspace) (path : Text) : Except Fault (Option Finding) :=
  let name := Path.base path
  match w.store.read path with
  | .error e =>
    .ok <| some
      { rule := jsonRule
        severity := .must
        path := path
        message := "Cannot read " ++ name ++ ": " ++ e.message }
  | .ok t =>
    match Json.read t with
    | .ok _ => .ok none
    | .error (.malformed problem ahead) =>
      .ok <| some
        { rule := jsonRule
          severity := .must
          path := path
          message := "Invalid JSON in " ++ name ++ ": " ++ problem.message
          detail := some "Fix the JSON syntax errors in this file"
          line := some (Json.lineOf t ahead) }
    | .error e => .error (.ofReadError t e)

/-- The finding on a file that is declared but not there. -/
def missingFile (w : Workspace) (folder declared : Text) : Finding where
  rule := info.id
  severity := .must
  path := w.configPath folder
  message := "workflow_files references non-existent file: " ++ declared
  detail := some <|
    "Either create " ++ Path.base declared ++ " in " ++ w.settings.workflowsDir
    ++ "/ or remove it from workflow_files"

/-- The finding on a file that is there but not declared. -/
def undeclaredFile (w : Workspace) (path : Text) : Finding where
  rule := info.id
  severity := .should
  path := path
  message := "Workflow file not listed in workflow_files: " ++ Path.base path
  detail := some <|
    "Add this file to workflow_files or remove it from " ++ w.settings.workflowsDir ++ "/"

/-- The findings on what is declared and what is there, `files` being the workflow files. -/
def differences (w : Workspace) (folder : Text) (files : List Text) (c : ProjectConfig) :
    List Finding :=
  let isThere (declared : Text) : Bool :=
    w.store.isFile (Path.join (w.workflowsPath folder) (Path.base declared))
  let isDeclared (path : Text) : Bool := (c.workflowFiles.map Path.base).contains (Path.base path)
  ((c.workflowFiles.filter fun f => !isThere f).map (missingFile w folder))
    ++ ((files.filter fun p => !isDeclared p).map (undeclaredFile w))

/-- Reports files that are not JSON, and where the declared files differ from those there are. -/
def run (w : Workspace) (folder : Text) : Except Fault (List Finding) := do
  if !w.hasWorkflows folder then return [missingFolder w folder]
  let files ← w.workflowFiles folder
  let invalid ← files.mapM (fileFinding? w)
  match ← ProjectConfig.read? w folder with
  | none => return invalid.filterMap id
  | some c => return invalid.filterMap id ++ differences w folder files c

end WorkflowLint.Check.ConfigWorkflows
