import WorkflowLint.Finding.Basic

/-!
# The guides

The sections of the guides that the built-in checks refer to.
-/

namespace WorkflowLint.Guide

/-- Running a scheduled workflow by hand. -/
def scheduleWebhook : GuideRef := ⟨"specific/schedule-triggers.md", some "Manual Trigger Webhook"⟩

/-- The path for running a scheduled workflow by hand. -/
def schedulePath : GuideRef := ⟨"specific/schedule-triggers.md", some "Important: Path Must Match"⟩

/-- The inputs of a sub-workflow. -/
def subworkflowParams : GuideRef :=
  ⟨"specific/sub-workflows.md", some "Input Parameter Requirements"⟩

/-- The list of a sub-workflow's callers. -/
def calledBy : GuideRef := ⟨"specific/sub-workflows.md", some "calledBy Array"⟩

/-- References to sub-workflows. -/
def subworkflowPlaceholder : GuideRef :=
  ⟨"specific/placeholder-patterns.md", some "Sub-Workflow References (SUBWKFL)"⟩

/-- The configuration of triggers. -/
def triggers : GuideRef :=
  ⟨"specific/third-party-triggers.md", some "Configuring Third-Party Triggered Workflows"⟩

/-- The path of a webhook. -/
def httpPath : GuideRef := ⟨"specific/http-triggers.md", some "URL Path Pattern"⟩

end WorkflowLint.Guide
