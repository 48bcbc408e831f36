import WorkflowLint.Check.Document
import WorkflowLint.Project.Definition
import WorkflowLint.Workflow.NodeKind
import WorkflowLint.Yaml.Shown

/-!
# Triggers in workflows and configurations

A workflow is started by the trigger nodes in its file, and its configuration declares triggers of
its own.  This module says which node counts, when a declared type fits it, and which URLs are
declared.
-/

namespace WorkflowLint

/-! ## Trigger nodes -/

/-- A node that starts a workflow.  Its name can be any value. -/
structure TriggerNode where
  type : Text
  name : Json
  category : TriggerCategory

namespace TriggerNode

/-- The trigger node that an object is, named by its type if its name counts as absent. -/
def ofObject? (node : Json.Members) : Option TriggerNode := do
  let type ← node.text? "type"
  let category ← NodeKind.category? type
  some ⟨type, (Json.present? (node.get? "name")).getD (.string type), category⟩

/-- The trigger nodes of a document. -/
def ofDocument (document : Json.Members) : List TriggerNode :=
  (Check.nodeObjects document).filterMap ofObject?

/-- The trigger node that counts: the first that is no webhook, or else the first. -/
def primary? (triggers : List TriggerNode) : Option TriggerNode :=
  (triggers.find? fun t => t.category != .webhook).or triggers.head?

end TriggerNode

/-- The type by which a configuration declares triggers of a category. -/
def TriggerCategory.declaredAs : TriggerCategory → TriggerType
  | .webhook => .http
  | .schedule => .schedule
  | .subworkflow => .subworkflow
  | .service => .serviceEvent

/-- What is wrong with declaring triggers of a type for the workflow that a node starts. -/
def TriggerType.mismatch? (type : TriggerType) (primary : TriggerNode) : Option Text :=
  if primary.category.declaredAs = type then none
  else
    some <|
      "Config declares type '" ++ type.name ++ "' but the workflow's primary trigger is a "
      ++ primary.category.name ++ " node (" ++ primary.type ++ "). Use type: '"
      ++ primary.category.declaredAs.name ++ "' instead."

/-! ## Webhook paths -/

namespace Webhook

/-- The placeholder for the URL that all webhooks have in common. -/
def basePlaceholder : Text := "\x7b\x7bORGSECRET_N8N_BASE_URL_TERCESORG\x7d\x7d"

/-- What stands between the common URL and the path of a webhook. -/
def segment : Text := "/webhook/"

/-- What is wrong with the form of a URL. -/
def urlProblem? (url : Text) : Option Text :=
  match Text.afterStart? basePlaceholder url with
  | none => some ("URL must start with " ++ basePlaceholder)
  | some rest =>
    if segment.isPrefixOf rest then none
    else some ("URL must include " ++ segment ++ " after the base URL")

/-- The path in a URL of the right form. -/
def pathOf (url : Text) : Text := url.drop (basePlaceholder.length + segment.length)

/-- The paths of the webhooks of a document. -/
def paths (document : Json.Members) : List Text :=
  (Check.nodeObjects document).filterMap fun node => do
    if !((node.get? "type").any fun v => v.isText NodeKind.webhook) then none
    let params ← (← node.get? "parameters").members?
    Json.Members.fullText? params "path"

end Webhook

/-! ## Declared URLs -/

/-- A URL that a trigger of a workflow declares; `manual` says that it is for running a scheduled
workflow by hand. -/
structure TriggerUrl where
  templateId : Text
  label : Text
  url : Text
  manual : Bool
deriving DecidableEq

/-- The URL that a trigger declares, and whether it is for running by hand. -/
def TriggerConfig.url? (t : TriggerConfig) : Option (Text × Bool) :=
  match t.type with
  | .http => (t.url.filter fun u => !u.isEmpty).map (·, false)
  | .schedule => (t.manualTriggerUrl.filter fun u => !u.isEmpty).map (·, true)
  | _ => none

/-- The URLs that the triggers of a project declare, in order. -/
def ProjectConfig.urls (c : ProjectConfig) : List TriggerUrl :=
  c.workflows.flatMap fun w =>
    w.triggerList.filterMap fun t => t.url?.map fun u => ⟨w.templateId, t.label, u.1, u.2⟩

end WorkflowLint
