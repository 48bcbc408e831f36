import WorkflowLint.Project.Definition
import WorkflowLint.Project.Workspace

/-!
# Reading project configurations

The configuration of a project is a YAML file in its folder.  `ProjectConfig.read` gives what the
file says or why it says nothing; `ProjectConfig.read?` is for checks that leave the reporting of
such errors to another one.
-/

namespace WorkflowLint

/-- Why a project has no configuration.  Other faults than these stop whoever reads it. -/
inductive ConfigError where
  | absent (path : Text)
  | unreadable (path reason : Text)
  | invalid (path : Text) (errors : List Text) (line : Option Nat)
  | fault (f : Fault)
deriving DecidableEq

/-- An error as a fault. -/
def ConfigError.toFault : ConfigError → Fault
  | .absent path => ⟨"ProjectConfigNotFoundError", "Project configuration not found: " ++ path⟩
  | .unreadable path reason =>
    ⟨"ProjectConfigNotFoundError",
      "Cannot read project configuration " ++ path ++ ": " ++ reason⟩
  | .invalid path errors _ =>
    ⟨"ProjectConfigValidationError",
      "Invalid project configuration " ++ path ++ ": " ++ Text.join "; " errors⟩
  | .fault f => f

namespace ProjectConfig

/-- The document in a configuration's text, which has to be a mapping. -/
def parse (path t : Text) : Except ConfigError Yaml.Graph :=
  match Yaml.load .given t with
  | .error (.fault f) => .error (.fault f)
  | .error e => .error (.invalid path ["Invalid YAML: " ++ (e.toFault .given t).text] e.line?)
  | .ok g =>
    if g.object.isMapping then .ok g
    else .error (.invalid path ["Configuration must be a mapping"] none)

/-- The configuration that the text of a file gives. -/
def ofText (path t : Text) : Except ConfigError ProjectConfig :=
  match parse path t with
  | .error e => .error e
  | .ok g =>
    match ofGraph g with
    | .error (.errors es) => .error (.invalid path (es.map Schema.SchemaError.message) none)
    | .error (.fault f) => .error (.fault f)
    | .ok c => .ok c

/-- The text of the configuration file of the project in a folder.  A path that is too long is a
fault, and one that leads to no file says that there is no configuration. -/
def readText (w : Workspace) (folder : Text) : Except ConfigError Text :=
  let path := w.configPath folder
  match w.store.read path with
  | .ok t => .ok t
  | .error (.undecodable e) => .error (.unreadable path e.message)
  | .error (.tooLong p) => .error (.fault ⟨"OSError", (Store.ReadError.tooLong p).message⟩)
  | .error _ => .error (.absent path)

/-- The configuration file of the project in a folder, as a mapping of whatever form. -/
def readDocument (w : Workspace) (folder : Text) : Except ConfigError Yaml.Graph := do
  parse (w.configPath folder) (← readText w folder)

/-- The configuration of the project in a folder. -/
def read (w : Workspace) (folder : Text) : Except ConfigError ProjectConfig := do
  ofText (w.configPath folder) (← readText w folder)

/-- The configuration of the project in a folder, if it has one. -/
def read? (w : Workspace) (folder : Text) : Except Fault (Option ProjectConfig) :=
  match read w folder with
  | .ok c => .ok (some c)
  | .error (.fault f) => .error f
  | .error _ => .ok none

end ProjectConfig
end WorkflowLint
