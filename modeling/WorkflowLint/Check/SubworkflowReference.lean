import WorkflowLint.Check.Info
import WorkflowLint.Finding.Guide
import WorkflowLint.Project.Document
import WorkflowLint.Text.Distance

/-!
# References to sub-workflows

A placeholder for a sub-workflow names a workflow of the configuration (SUBWKFL-REFERENCES).
-/

namespace WorkflowLint.Check.SubworkflowReference

/-- The description of the check. -/
def info : CheckInfo where
  id := "SUBWKFL-REFERENCES"
  name := "subworkflow_references"
  severity := .must
  description := "SUBWKFL placeholders must reference existing workflow template ids"
  details :=
    "Each \x7b\x7bSUBWKFL_<TEMPLATE_ID>_LFKWBUS\x7d\x7d must name a configured workflow_template_id"
  category := some "references"
  guideRef := some Guide.subworkflowPlaceholder

/-- How many edits a suggested id may be away. -/
def suggestionLimit : Nat := 2

/-- The finding on a placeholder at an offset of a file, `ids` being those of the configuration. -/
def finding (w : Workspace) (ids : List Text) (d : WorkflowDocument)
    (reference : Nat × Placeholder.Token) : Finding :=
  let (offset, token) := reference
  let near := Text.suggestions token.name ids suggestionLimit
  let hint : Text :=
    if near.isEmpty then [] else "; did you mean: " ++ Text.join ", " near ++ "?"
  let available := Text.join ", " ids
  { rule := info.id
    severity := .must
    path := d.path
    message :=
      "SUBWKFL placeholder references unknown template ID: \"" ++ token.name ++ "\"" ++ hint
    detail := some <|
      "The placeholder " ++ token.text ++ " references a template ID that is not declared in "
      ++ w.settings.configFile ++ ". Available template IDs: "
      ++ (if available.isEmpty then ↑"(none)" else available)
    line := some (Text.lineAt d.text offset)
    guideRef := some Guide.subworkflowPlaceholder }

/-- The findings on a file. -/
def findings (w : Workspace) (ids : List Text) (d : WorkflowDocument) : List Finding :=
  ((Placeholder.references d.text).filter fun r => !ids.contains r.2.name).map (finding w ids d)

/-- Reports every placeholder that names no workflow. -/
def run (w : Workspace) (folder : Text) : Except Fault (List Finding) := do
  match ← ProjectConfig.read? w folder with
  | none => return []
  | some c => return (← WorkflowDocument.readAll w folder).flatMap (findings w c.templateIds)

end WorkflowLint.Check.SubworkflowReference
