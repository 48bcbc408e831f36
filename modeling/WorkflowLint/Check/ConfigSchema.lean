import WorkflowLint.Check.Info
import WorkflowLint.Project.Config

/-!
# The configuration file

A project has a configuration file, and it can be read and matches the schema (CONFIG-SCHEMA).  This
is the only check that reports why a configuration cannot be read.
-/

namespace WorkflowLint.Check.ConfigSchema

/-- The description of the check. -/
def info : CheckInfo where
  id := "CONFIG-SCHEMA"
  name := "config_schema"
  severity := .must
  description := "The project configuration file must exist, parse and match the schema"
  details := "Requires project_id, workflow_files and a workflows list with one entry per template"
  category := some "config"

/-- A finding on a file or folder. -/
def finding (path message : Text) : Finding where
  rule := info.id
  severity := .must
  path := path
  message := message

/-- The findings that an error of the configuration gives. -/
def ofError (w : Workspace) (folder : Text) : ConfigError → Except Fault (List Finding)
  | .absent _ =>
    let name := w.settings.configFile
    .ok [{ finding folder ("Missing " ++ name ++ " file") with
      detail := some ("Create " ++ name ++ " with project_id, workflow_files and workflows") }]
  | .unreadable path reason =>
    .ok [finding path ("Cannot read " ++ w.settings.configFile ++ ": " ++ reason)]
  | .invalid path errors line =>
    .ok <| errors.map fun error =>
      { finding path ("Invalid " ++ w.settings.configFile ++ ": " ++ error) with
        line := line.map Int.ofNat }
  | .fault f => .error f

/-- The elements that occurred before, as often as they did. -/
def repeated (seen : List Text) : List Text → List Text
  | [] => []
  | id :: ids => if seen.contains id then id :: repeated seen ids else repeated (id :: seen) ids

/-- The finding on an id that occurred before. -/
def duplicate (path id : Text) : Finding :=
  { finding path ("Duplicate workflow_template_id \"" ++ id ++ "\"") with
    detail := some "Each workflow must have a unique workflow_template_id" }

/-- Reports why there is no configuration, or every id of a workflow that occurred before. -/
def run (w : Workspace) (folder : Text) : Except Fault (List Finding) :=
  match ProjectConfig.read w folder with
  | .error e => ofError w folder e
  | .ok c => .ok ((repeated [] c.templateIds).map (duplicate (w.configPath folder)))

end WorkflowLint.Check.ConfigSchema
