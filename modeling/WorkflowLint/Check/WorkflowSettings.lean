import WorkflowLint.Check.Document

/-!
# Settings and properties of workflow documents

Two settings are required of every workflow (WORKFLOW-SETTINGS), and properties that differ between
installations must not be in its file (WORKFLOW-SANITIZATION).  Both are mended by an edit of the
document.
-/

namespace WorkflowLint.Check

namespace RequiredSettings

/-- The description of the check. -/
def info : CheckInfo where
  id := "WORKFLOW-SETTINGS"
  name := "workflow_settings"
  severity := .must
  description := "Workflows must set settings.errorWorkflow and settings.executionOrder"
  details :=
    "errorWorkflow routes failures to the shared error workflow; executionOrder must be v1"
  fixable := true
  category := some "settings"

/-- The settings and their values. -/
def required : List (Text × Text) := [
  ("errorWorkflow", "\x7b\x7bORGSECRET_ERROR_WORKFLOW_ID_TERCESORG\x7d\x7d"),
  ("executionOrder", "v1")]

/-- The settings of a document, none if they are not an object. -/
def settings (document : Json.Members) : Json.Members :=
  ((document.get? "settings").bind Json.members?).getD []

/-- Gives a setting a value, in a new object if the settings are none. -/
def setSetting (key : Text) (value : Json) (document : Json.Members) : Json.Members :=
  document.set "settings" (.object ((settings document).set key value))

/-- The finding on a setting. -/
def finding (path key value message detail description : Text) : Finding where
  rule := info.id
  severity := .must
  path := path
  message := message
  detail := some detail
  fix := some (.ofEdit description (setSetting key (.string value)))

/-- The finding on a required setting that is missing or has another value. -/
def check? (path : Text) (document : Json.Members) (key value : Text) : Option Finding :=
  match Json.present? ((settings document).get? key) with
  | none =>
    some <| finding path key value ("Missing required setting: " ++ key)
      ("Add \"" ++ key ++ "\": \"" ++ value ++ "\" to the settings object")
      ("Add " ++ key ++ " setting")
  | some actual =>
    if actual.isText value then none
    else
      some <| finding path key value
        ("Setting " ++ key ++ " has wrong value: \"" ++ actual.shown ++ "\"")
        ("Change to: \"" ++ value ++ "\"")
        ("Fix " ++ key ++ " setting")

/-- Reports the required settings that are missing or have another value. -/
def run (t path : Text) : Except Fault (List Finding) :=
  onDocument t fun document => required.filterMap fun r => check? path document r.1 r.2

end RequiredSettings

namespace ForbiddenProperties

/-- The description of the check. -/
def info : CheckInfo where
  id := "WORKFLOW-SANITIZATION"
  name := "workflow_sanitization"
  severity := .must
  description := "Workflows must not contain n8n-generated properties"
  details := "Remove id, versionId, meta, active, tags and pinData before committing"
  fixable := true
  category := some "sanitization"

/-- The properties and why each of them must not be in a file. -/
def forbidden : List (Text × Text) := [
  ("id", "n8n assigns this when the workflow is saved and it varies per environment"),
  ("versionId", "n8n updates this on every save"),
  ("meta", "n8n metadata such as instanceId varies per environment"),
  ("active", "workflows are activated through deployment"),
  ("tags", "n8n tags are environment-specific"),
  ("pinData", "pinned execution data is development data only")]

/-- Leaves out a property. -/
def dropProperty (key : Text) (document : Json.Members) : Json.Members := document.erase key

/-- The finding on a property. -/
def finding (path key reason : Text) : Finding where
  rule := info.id
  severity := .must
  path := path
  message := "Workflow contains forbidden n8n property: \"" ++ key ++ "\""
  detail := some ("Remove the \"" ++ key ++ "\" property: " ++ reason ++ ".")
  fix := some (.ofEdit ("Remove \"" ++ key ++ "\" property") (dropProperty key))

/-- Reports the forbidden properties that a document has. -/
def run (t path : Text) : Except Fault (List Finding) :=
  onDocument t fun document =>
    (forbidden.filter fun f => (document.get? f.1).isSome).map fun f => finding path f.1 f.2

end ForbiddenProperties

end WorkflowLint.Check
