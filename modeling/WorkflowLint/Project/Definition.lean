import WorkflowLint.Project.Schema

/-!
# Project configurations

What a project says about itself: its id, the files with its workflows, and for each workflow how it
is started.  `ProjectConfig.ofGraph` checks a YAML document against the schema of configurations, and
`ProjectConfig.toValue` gives the value back with all entries of the schema spelled out.

Entries that the schema does not know are kept.
-/

namespace WorkflowLint

open Yaml (Graph Value)

/-- The ways of starting a workflow that a configuration can declare. -/
inductive TriggerType where
  | http
  | schedule
  | subworkflow
  | serviceEvent
deriving DecidableEq

namespace TriggerType

/-- The name of a type in configurations. -/
def name : TriggerType → Text
  | .http => "http"
  | .schedule => "schedule"
  | .subworkflow => "subworkflow"
  | .serviceEvent => "service_event"

/-- All types. -/
def all : List TriggerType := [.http, .schedule, .subworkflow, .serviceEvent]

/-- The type with a name. -/
def ofName? (name : Text) : Option TriggerType := all.find? fun t => t.name == name

end TriggerType

/-- A trigger of a workflow. -/
structure TriggerConfig where
  type : TriggerType
  triggerId : Option Text
  url : Option Text
  manualTriggerUrl : Option Text
  calledBy : Option (List Text)
  inputSchema : Option (List Graph)
  extra : List (Text × Graph)

/-- A workflow of a project.  No triggers and an empty list of triggers are told apart. -/
structure WorkflowConfig where
  templateId : Text
  name : Option Text
  triggers : Option (List TriggerConfig)
  extra : List (Text × Graph)

/-- The configuration of a project. -/
structure ProjectConfig where
  projectId : Text
  workflowFiles : List Text
  workflows : List WorkflowConfig
  extra : List (Text × Graph)

/-! ## Values of parts -/

namespace Yaml.Value

/-- A text that can be missing, as a value. -/
def ofText? (t : Option Text) : Value := (t.map string).getD null

/-- A list that can be missing, as a value. -/
def ofList? (items : Option (List Value)) : Value := (items.map list).getD null

/-- Named values as a mapping. -/
def ofNamed (named : List (Text × Value)) : Value :=
  .mapping (named.map fun p => (.string p.1, p.2))

/-- Named parts of a document with their values. -/
def named (parts : List (Text × Graph)) : List (Text × Value) :=
  parts.map fun p => (p.1, p.2.value)

end Yaml.Value

/-! ## Triggers -/

namespace TriggerConfig

/-- The type that a part of a document names.  A text that names none has to be encodable to be
quoted. -/
def typeOf (g : Graph) : Schema.Checked TriggerType := do
  let t ← Schema.text g
  match TriggerType.ofName? t with
  | some type => .ok type
  | none =>
    let names := Text.join ", " (TriggerType.all.map fun t => t.name.quoted)
    let problem := "type must be one of (" ++ names ++ "), got '" ++ t ++ "'"
    match Utf8.encode problem with
    | .ok _ => Schema.fail ("Value error, " ++ problem)
    | .error e => .error (.fault (.ofSurrogates e))

/-- The entries that a trigger can have. -/
def entryNames : List Text :=
  ["type", "trigger_id", "url", "manual_trigger_url", "called_by", "input_schema"]

open Schema in
/-- The trigger that a part of a document stands for. -/
def ofGraph (g : Graph) : Checked TriggerConfig := do
  let es ← entries "TriggerConfig" g
  .ok mk
    |> withPart (required es "type" typeOf)
    |> withPart (optional es "trigger_id" none (nullable text))
    |> withPart (optional es "url" none (nullable text))
    |> withPart (optional es "manual_trigger_url" none (nullable text))
    |> withPart (optional es "called_by" none (nullable (listOf text)))
    |> withPart (optional es "input_schema" none (nullable items))
    |> withExtra entryNames es

/-- The name of a trigger for readers: its id, or else its type. -/
def label (t : TriggerConfig) : Text :=
  (t.triggerId.filter fun id => !id.isEmpty).getD t.type.name

/-- A trigger as a value. -/
def toValue (t : TriggerConfig) : Value :=
  let known : List (Text × Value) :=
    [("type", .string t.type.name), ("trigger_id", Value.ofText? t.triggerId),
      ("url", Value.ofText? t.url), ("manual_trigger_url", Value.ofText? t.manualTriggerUrl),
      ("called_by", Value.ofList? (t.calledBy.map fun ts => ts.map .string)),
      ("input_schema", Value.ofList? (t.inputSchema.map fun gs => gs.map Graph.value))]
  Value.ofNamed (known ++ Value.named t.extra)

end TriggerConfig

/-! ## Workflows -/

namespace WorkflowConfig

/-- The entries that a workflow can have. -/
def entryNames : List Text := ["workflow_template_id", "workflow_name", "triggers"]

open Schema in
/-- The workflow that a part of a document stands for. -/
def ofGraph (g : Graph) : Checked WorkflowConfig := do
  let es ← entries "WorkflowConfig" g
  .ok mk
    |> withPart (required es "workflow_template_id" text)
    |> withPart (optional es "workflow_name" none (nullable text))
    |> withPart (optional es "triggers" none (nullable (listOf TriggerConfig.ofGraph)))
    |> withExtra entryNames es

/-- A workflow as a value. -/
def toValue (w : WorkflowConfig) : Value :=
  let known : List (Text × Value) :=
    [("workflow_template_id", .string w.templateId), ("workflow_name", Value.ofText? w.name),
      ("triggers", Value.ofList? (w.triggers.map fun ts => ts.map TriggerConfig.toValue))]
  Value.ofNamed (known ++ Value.named w.extra)

/-- The triggers of a workflow, none if they are missing. -/
def triggerList (w : WorkflowConfig) : List TriggerConfig := w.triggers.getD []

end WorkflowConfig

/-! ## Projects -/

namespace ProjectConfig

/-- The entries that a configuration can have. -/
def entryNames : List Text := ["project_id", "workflow_files", "workflows"]

open Schema in
/-- The configuration that a document stands for. -/
def ofGraph (g : Graph) : Checked ProjectConfig := do
  let es ← entries "ProjectConfig" g
  .ok mk
    |> withPart (required es "project_id" fullText)
    |> withPart (required es "workflow_files" (listOf text))
    |> withPart (optional es "workflows" [] (listOf WorkflowConfig.ofGraph))
    |> withExtra entryNames es

/-- A configuration as a value. -/
def toValue (c : ProjectConfig) : Value :=
  let known : List (Text × Value) :=
    [("project_id", .string c.projectId),
      ("workflow_files", .list (c.workflowFiles.map .string)),
      ("workflows", .list (c.workflows.map WorkflowConfig.toValue))]
  Value.ofNamed (known ++ Value.named c.extra)

/-- The ids of the workflows. -/
def templateIds (c : ProjectConfig) : List Text := c.workflows.map (·.templateId)

/-- The first workflow with an id. -/
def workflow? (c : ProjectConfig) (id : Text) : Option WorkflowConfig :=
  c.workflows.find? fun w => w.templateId == id

end ProjectConfig
end WorkflowLint
