import WorkflowLint.Check.CalledBy
import WorkflowLint.Check.ConfigSchema
import WorkflowLint.Check.ConfigWorkflows
import WorkflowLint.Check.Credential
import WorkflowLint.Check.ErrorBranch
import WorkflowLint.Check.Execution
import WorkflowLint.Check.Placeholder
import WorkflowLint.Check.Registry
import WorkflowLint.Check.ScheduleWebhook
import WorkflowLint.Check.SubworkflowInput
import WorkflowLint.Check.SubworkflowReference
import WorkflowLint.Check.TriggerTypes
import WorkflowLint.Check.TriggersRequired
import WorkflowLint.Check.WebhookId
import WorkflowLint.Check.WebhookPath
import WorkflowLint.Check.WorkflowSettings

/-!
# The built-in checks

The registry that runs use unless they are given another one.
-/

namespace WorkflowLint

open Check

/-- A check of a graph that cannot fail. -/
def GraphCheck.total (info : CheckInfo) (run : Workflow.Graph → CheckContext → List Finding) :
    GraphCheck :=
  ⟨info, fun g c => .ok (run g c)⟩

/-- A check of a text that cannot fail. -/
def ContentCheck.total (info : CheckInfo) (run : (text path : Text) → List Finding) :
    ContentCheck :=
  ⟨info, fun t path => .ok (run t path)⟩

/-- The built-in checks. -/
def Registry.builtIn : Registry where
  graph := [
    .total InitRequired.info InitRequired.run,
    .total SubmitResult.info SubmitResult.run,
    .total SubworkflowInput.info SubworkflowInput.run,
    .total ScheduleWebhook.info ScheduleWebhook.run,
    .total ErrorBranch.info ErrorBranch.run]
  content := [
    .total InstparmQuote.info InstparmQuote.run,
    .total PlaceholderSyntax.info PlaceholderSyntax.run,
    ⟨Credential.info, Credential.run⟩,
    ⟨RequiredSettings.info, RequiredSettings.run⟩,
    ⟨ForbiddenProperties.info, ForbiddenProperties.run⟩,
    ⟨WebhookId.info, WebhookId.run⟩]
  project := [
    ⟨ConfigSchema.info, ConfigSchema.run⟩,
    ⟨ConfigWorkflows.info, ConfigWorkflows.run⟩,
    ⟨SubworkflowReference.info, SubworkflowReference.run⟩,
    ⟨CalledBy.info, CalledBy.run⟩,
    ⟨TriggersRequired.info, TriggersRequired.run⟩,
    ⟨TriggerTypes.info, TriggerTypes.run⟩,
    ⟨WebhookPath.info, WebhookPath.run⟩]

end WorkflowLint
