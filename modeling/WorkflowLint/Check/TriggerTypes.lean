import WorkflowLint.Check.Info
import WorkflowLint.Finding.Guide
import WorkflowLint.Project.Document
import WorkflowLint.Project.Trigger

/-!
# Types of declared triggers

The type of a declared trigger fits the node that starts the workflow (TRIGGER-TYPE-CONSISTENCY).
-/

namespace WorkflowLint.Check.TriggerTypes

/-- The description of the check. -/
def info : CheckInfo where
  id := "TRIGGER-TYPE-CONSISTENCY"
  name := "trigger_type_consistency"
  severity := .must
  description := "Configured trigger types must match the trigger node in the workflow"
  details := ↑(
    "http needs a webhook node, schedule a schedule trigger, "
    ++ "subworkflow an Execute Workflow Trigger")
  category := some "triggers"
  guideRef := some Guide.triggers

/-- The finding on a trigger whose type does not fit the node that starts the workflow. -/
def finding (w : Workspace) (folder templateId : Text) (primary : TriggerNode)
    (type : TriggerType) (problem : Text) : Finding where
  rule := info.id
  severity := .must
  path := w.configPath folder
  message := "Trigger type mismatch in workflow \"" ++ templateId ++ "\": " ++ problem
  detail := some <|
    "Workflow trigger node: " ++ primary.type ++ " (" ++ primary.name.shown
    ++ ")\nDetected category: " ++ primary.category.name ++ "\nConfig trigger type: " ++ type.name
    ++ "\n\nSee documentation: " ++ Guide.triggers.format
  guideRef := some Guide.triggers

/-- The node that starts a workflow, if its file can be found. -/
def primary? (documents : List WorkflowDocument) (templateId : Text) : Option TriggerNode := do
  let document ← WorkflowDocument.withId? templateId documents
  TriggerNode.primary? (TriggerNode.ofDocument (← document.members))

/-- The findings on a workflow. -/
def findings (w : Workspace) (folder : Text) (documents : List WorkflowDocument)
    (workflow : WorkflowConfig) : List Finding :=
  match primary? documents workflow.templateId with
  | none => []
  | some primary =>
    workflow.triggerList.filterMap fun t =>
      (t.type.mismatch? primary).map (finding w folder workflow.templateId primary t.type)

/-- Reports every trigger whose type does not fit. -/
def run (w : Workspace) (folder : Text) : Except Fault (List Finding) := do
  match ← ProjectConfig.read? w folder with
  | none => return []
  | some c =>
    let documents ← WorkflowDocument.readAll w folder
    return c.workflows.flatMap (findings w folder documents)

end WorkflowLint.Check.TriggerTypes
