import WorkflowLint.Text.Blank
import WorkflowLint.Text.Case
import WorkflowLint.Yaml.Load
import WorkflowLint.Yaml.Shown

/-!
# Settings

Where a project keeps its parts, and whether runs are strict unless they say otherwise.  A setting
is taken from the environment, else from the file of defaults, else it is built in.

The file of defaults is a YAML mapping with a section for the project and one for runs.  Nothing but
the settings that are asked for is looked at, so a file that is no such mapping is a fault only for
settings that the environment does not give.
-/

namespace WorkflowLint

/-- What the environment gives. -/
structure Environment where
  configFile : Option Text := none
  workflowsDir : Option Text := none
  suffix : Option Text := none
  strict : Option Text := none

/-- The settings of a run. -/
structure Settings where
  /-- The name of the configuration file of a project. -/
  configFile : Text := "config.yaml"
  /-- The folder of a project that its workflow files are in. -/
  workflowsDir : Text := "workflows"
  /-- The ending of the names of workflow files. -/
  suffix : Text := ".json"
  /-- Whether runs are strict. -/
  strict : Bool := false
deriving DecidableEq

namespace Settings

/-- The settings that are built in. -/
def builtIn : Settings := {}

/-- The words that stand for strictness. -/
def strictWords : List Text := ["1", "true", "yes", "on"]

/-- Whether a variable asks for strictness. -/
def asksForStrictness (t : Text) : Bool := strictWords.contains t.strip.lower

/-- An ending of names, with a dot in front. -/
def dotted (t : Text) : Text := if t.head? = some (.char '.') then t else .char '.' :: t

/-- What the environment gives, unless it is empty. -/
def given (t : Option Text) : Option Text := t.filter fun t => !t.isEmpty

/-! ## The file of defaults -/

/-- The file of defaults as a document, or the fault of reading it. -/
abbrev Defaults := Except Fault Yaml.Graph

/-- A file of defaults that holds no settings. -/
def Defaults.none : Defaults := .ok ⟨#[.mapping []], 0⟩

/-- Reads the text of the file at a path.  A file that is missing, and one whose value counts as
absent, hold no settings. -/
def Defaults.read (path : Text) (text : Option Text) : Defaults :=
  match text with
  | .none => Defaults.none
  | .some t =>
    let t := t.normaliseLineEnds
    let source := Yaml.Source.file path
    match Yaml.load source t with
    | .error e => .error (e.toFault source t)
    | .ok g => if g.isBlank then Defaults.none else .ok g

/-- The entries of a mapping. -/
def entries (g : Yaml.Graph) : Except Fault Yaml.Entries :=
  match g.entries? with
  | some es => .ok es
  | none =>
    .error ⟨"AttributeError", "'" ++ g.object.kindName ++ "' object has no attribute 'get'"⟩

/-- The entries of a section; a section that is missing has none. -/
def Defaults.section (d : Defaults) (name : Text) : Except Fault Yaml.Entries := do
  match (← entries (← d)).get? name with
  | .none => .ok []
  | .some g => entries g

/-- A part of a document as a text. -/
def shown (g : Yaml.Graph) : Except Fault Text :=
  let v := g.value
  if v.hasTooLong then .error .tooLong else .ok v.shown

/-- A setting of the project as a text. -/
def Defaults.project (d : Defaults) (name otherwise : Text) : Except Fault Text := do
  match ((← d.section "project").get? name).filter fun g => !g.isBlank with
  | .none => .ok otherwise
  | .some g => shown g

/-! ## Choosing -/

/-- The name of the configuration file. -/
def chooseConfigFile (e : Environment) (d : Defaults) : Except Fault Text :=
  match given e.configFile with
  | some t => .ok t
  | none => d.project "config_file" builtIn.configFile

/-- The folder of the workflow files. -/
def chooseWorkflowsDir (e : Environment) (d : Defaults) : Except Fault Text :=
  match given e.workflowsDir with
  | some t => .ok t
  | none => d.project "workflows_dir" builtIn.workflowsDir

/-- The ending of the names of workflow files. -/
def chooseSuffix (e : Environment) (d : Defaults) : Except Fault Text :=
  match given e.suffix with
  | some t => .ok (dotted t)
  | none => (d.project "workflow_suffix" builtIn.suffix).map dotted

/-- Whether runs are strict; the environment decides even if the variable is empty. -/
def chooseStrict (e : Environment) (d : Defaults) : Except Fault Bool :=
  match e.strict with
  | some t => .ok (asksForStrictness t)
  | none => (d.section "defaults").map fun es => (es.get? "strict").any fun g => !g.isBlank

/-- The settings that an environment and a file of defaults give. -/
def choose (e : Environment) (d : Defaults) : Except Fault Settings := do
  return ⟨← chooseConfigFile e d, ← chooseWorkflowsDir e d, ← chooseSuffix e d, ← chooseStrict e d⟩

/-- The settings that an environment gives over those that are built in. -/
def ofEnvironment (e : Environment) : Settings where
  configFile := (given e.configFile).getD builtIn.configFile
  workflowsDir := (given e.workflowsDir).getD builtIn.workflowsDir
  suffix := dotted ((given e.suffix).getD builtIn.suffix)
  strict := e.strict.any asksForStrictness

/-- A file that holds no settings leaves the choice to the environment. -/
theorem choose_none (e : Environment) : choose e Defaults.none = .ok (ofEnvironment e) := by
  obtain ⟨file, folder, suffix, strict⟩ := e
  unfold choose chooseConfigFile chooseWorkflowsDir chooseSuffix chooseStrict ofEnvironment
  cases given file <;> cases given folder <;> cases given suffix <;> cases strict <;> rfl

end Settings
end WorkflowLint
