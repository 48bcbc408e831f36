import WorkflowLint.Json.Reader
import WorkflowLint.Project.Caller
import WorkflowLint.Project.Config

/-!
# Workflow files of a project

A workflow file of a project is read as a text, and as an object if it is one.  The name of the file
without its extension is the id of the workflow.
-/

namespace WorkflowLint

/-- A workflow file that can be read.  It has members if it is an object. -/
structure WorkflowDocument where
  path : Text
  templateId : Text
  text : Text
  members : Option Json.Members

namespace WorkflowDocument

/-- A workflow file with its text. -/
def ofText (path t : Text) : Except Fault WorkflowDocument :=
  match Json.readObject t with
  | .error e => .error (.ofReadError t e)
  | .ok members => .ok ⟨path, Path.stem path, t, members⟩

/-- The workflow files of a project that can be read. -/
def readAll (w : Workspace) (folder : Text) : Except Fault (List WorkflowDocument) := do
  let paths ← w.workflowFiles folder
  (paths.filterMap fun p => (w.store.read p).toOption.map fun t => (p, t)).mapM fun d =>
    ofText d.1 d.2

/-- The last one of the files with an id. -/
def withId? (id : Text) (documents : List WorkflowDocument) : Option WorkflowDocument :=
  documents.reverse.find? fun d => d.templateId == id

/-- The callers of every sub-workflow that some files call. -/
def callers (documents : List WorkflowDocument) : List (Text × List Text) :=
  Caller.ofDocuments (documents.map fun d => (d.templateId, d.text))

end WorkflowDocument
end WorkflowLint
