import WorkflowLint.Check.Info
import WorkflowLint.Finding.Guide
import WorkflowLint.Project.Config

/-!
# Declared triggers

Every workflow of a configuration declares a trigger (TRIGGERS-REQUIRED).
-/

namespace WorkflowLint.Check.TriggersRequired

/-- The description of the check. -/
def info : CheckInfo where
  id := "TRIGGERS-REQUIRED"
  name := "triggers_required"
  severity := .must
  description := "Every workflow must have at least one trigger defined"
  details := "Use type service_event for third-party service triggers (Gmail, Slack, ...)"
  category := some "triggers"
  guideRef := some Guide.triggers

/-- The finding on a workflow that declares no trigger. -/
def finding (w : Workspace) (folder : Text) (workflow : WorkflowConfig) : Finding :=
  let state : Text := if workflow.triggers.isNone then "missing" else "empty"
  { rule := info.id
    severity := .must
    path := w.configPath folder
    message :=
      "Workflow \"" ++ workflow.templateId
      ++ "\" has no triggers defined. Every workflow must have at least one trigger."
    detail := some <|
      "The triggers list for workflow \"" ++ workflow.templateId ++ "\" is " ++ state ++ ".\n\n"
      ++ "Trigger types:\n- http: webhook-triggered workflows\n"
      ++ "- schedule: cron/scheduled workflows\n"
      ++ "- service_event: third-party service triggers\n"
      ++ "- subworkflow: workflows called by other workflows\n\n"
      ++ "See documentation: " ++ Guide.triggers.format
    guideRef := some Guide.triggers }

/-- Reports every workflow that declares no trigger. -/
def run (w : Workspace) (folder : Text) : Except Fault (List Finding) := do
  match ← ProjectConfig.read? w folder with
  | none => return []
  | some c => return (c.workflows.filter fun f => f.triggerList.isEmpty).map (finding w folder)

end WorkflowLint.Check.TriggersRequired
