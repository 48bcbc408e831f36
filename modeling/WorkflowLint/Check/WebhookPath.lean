import WorkflowLint.Check.Info
import WorkflowLint.Finding.Guide
import WorkflowLint.Project.Document
import WorkflowLint.Project.Trigger

/-!
# Paths of webhooks

A declared URL has the form that deployment expects, and its path is that of a webhook in the file
of the workflow (WEBHOOK-PATH-CONSISTENCY).  A URL without a path is left alone, and so is one whose
workflow file is no object.
-/

namespace WorkflowLint.Check.WebhookPath

/-- The description of the check. -/
def info : CheckInfo where
  id := "WEBHOOK-PATH-CONSISTENCY"
  name := "webhook_path_consistency"
  severity := .must
  description := "Trigger URLs must have the expected structure and match webhook node paths"
  details :=
    "URLs must start with " ++ Webhook.basePlaceholder ++ Webhook.segment
    ++ " and the rest must equal the workflow's webhook node path"
  category := some "references"
  guideRef := some Guide.httpPath

/-- The guide to a URL. -/
def guide (u : TriggerUrl) : GuideRef := if u.manual then Guide.schedulePath else Guide.httpPath

/-- The name of the entry that declares a URL. -/
def entryName (u : TriggerUrl) : Text := if u.manual then "manual_trigger_url" else "url"

/-- A finding on a URL. -/
def finding (u : TriggerUrl) (path message detail : Text) : Finding where
  rule := info.id
  severity := .must
  path := path
  message := message
  detail := some detail
  guideRef := some (guide u)

/-- The reference to the guide at the end of a detail. -/
def seeGuide (u : TriggerUrl) : Text := "\n\nSee documentation: " ++ (guide u).format

/-- The finding on a URL of a project without a folder for workflow files. -/
def missingFolder (w : Workspace) (folder : Text) (u : TriggerUrl) : Finding :=
  finding u (w.configPath folder)
    ("Trigger \"" ++ u.label ++ "\" in workflow \"" ++ u.templateId ++ "\" has URL but no "
      ++ w.settings.workflowsDir ++ " folder exists")
    ↑"Create the workflows folder with the corresponding workflow JSON file"

/-- The finding on a URL of the wrong form. -/
def malformed (w : Workspace) (folder : Text) (u : TriggerUrl) (problem : Text) : Finding :=
  finding u (w.configPath folder)
    ("Invalid " ++ entryName u ++ " structure in trigger \"" ++ u.label ++ "\" of workflow \""
      ++ u.templateId ++ "\": " ++ problem)
    ("The " ++ entryName u ++ " must follow the pattern: " ++ Webhook.basePlaceholder
      ++ Webhook.segment ++ "<path>\n\nCurrent value: " ++ u.url ++ seeGuide u)

/-- The finding on a URL whose workflow has no file. -/
def missingFile (w : Workspace) (folder : Text) (u : TriggerUrl) : Finding :=
  finding u (w.configPath folder)
    ("Cannot find workflow file for \"" ++ u.templateId ++ "\" to validate webhook path")
    ("The trigger \"" ++ u.label ++ "\" references workflow \"" ++ u.templateId
      ++ "\" but no matching workflow file was found in the " ++ w.settings.workflowsDir
      ++ " folder.")

/-- The finding on a URL whose workflow has no webhook. -/
def missingWebhook (w : Workspace) (u : TriggerUrl) (path : Text) : Finding :=
  finding u path
    ("Workflow \"" ++ u.templateId ++ "\" has no webhook node but trigger \"" ++ u.label
      ++ "\" expects one")
    ("Expected webhook path: " ++ Webhook.pathOf u.url
      ++ "\n\nAdd a webhook node with the matching path, or remove the " ++ entryName u ++ " from "
      ++ w.settings.configFile ++ "." ++ seeGuide u)

/-- The finding on a URL whose workflow has other webhooks. -/
def mismatch (u : TriggerUrl) (path : Text) (paths : List Text) : Finding :=
  finding u path
    ("Webhook path mismatch in \"" ++ u.templateId ++ "\": config expects \""
      ++ Webhook.pathOf u.url ++ "\" but workflow has " ++ quotedList paths)
    ("Config " ++ entryName u ++ " path: " ++ Webhook.pathOf u.url
      ++ "\nWorkflow webhook path(s): " ++ quotedList paths ++ seeGuide u)

/-- The finding on a URL whose path is to be that of a webhook. -/
def pathFinding? (w : Workspace) (folder : Text) (documents : List WorkflowDocument)
    (u : TriggerUrl) : Option Finding :=
  match WorkflowDocument.withId? u.templateId documents with
  | none => some (missingFile w folder u)
  | some d =>
    match d.members with
    | none => none
    | some members =>
      let paths := Webhook.paths members
      if paths.isEmpty then some (missingWebhook w u d.path)
      else if paths.contains (Webhook.pathOf u.url) then none
      else some (mismatch u d.path paths)

/-- The finding on a URL. -/
def urlFinding? (w : Workspace) (folder : Text) (documents : List WorkflowDocument)
    (u : TriggerUrl) : Option Finding :=
  match Webhook.urlProblem? u.url with
  | some problem => some (malformed w folder u problem)
  | none =>
    if (Webhook.pathOf u.url).isEmpty then none else pathFinding? w folder documents u

/-- Reports every URL that does not lead to a webhook of its workflow. -/
def run (w : Workspace) (folder : Text) : Except Fault (List Finding) := do
  let urls := ((← ProjectConfig.read? w folder).map ProjectConfig.urls).getD []
  if urls.isEmpty then return []
  if !w.hasWorkflows folder then return urls.map (missingFolder w folder)
  let documents ← WorkflowDocument.readAll w folder
  return urls.filterMap (urlFinding? w folder documents)

end WorkflowLint.Check.WebhookPath
