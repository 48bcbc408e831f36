import WorkflowLint.Check.Info
import WorkflowLint.Finding.Guide
import WorkflowLint.Project.Document

/-!
# Lists of callers

The trigger of a sub-workflow lists every workflow that calls it (CALLEDBY-CONSISTENCY).  The fix
adds a caller to the list.
-/

namespace WorkflowLint.Check.CalledBy

/-- The description of the check. -/
def info : CheckInfo where
  id := "CALLEDBY-CONSISTENCY"
  name := "calledby_consistency"
  severity := .should
  description := "Sub-workflow called_by lists must include every actual caller"
  details :=
    "When workflow A calls sub-workflow B, B's subworkflow trigger must list A in called_by"
  fixable := true
  category := some "references"
  guideRef := some Guide.calledBy

/-- The message, the detail and the description of the fix for a caller that a list lacks. -/
def wordingForList (configFile subworkflow caller : Text) (listed : List Text) :
    Text × Text × Text :=
  ("Subworkflow \"" ++ subworkflow ++ "\" is called by \"" ++ caller ++ "\" but \"" ++ caller
      ++ "\" is not listed in its called_by array",
    "Add '" ++ caller ++ "' to called_by for subworkflow '" ++ subworkflow ++ "' in " ++ configFile
      ++ ". Current called_by: [" ++ Text.join ", " (listed.map Text.quoted) ++ "]",
    "Add '" ++ caller ++ "' to called_by for '" ++ subworkflow ++ "'")

/-- The same if there is no list. -/
def wordingForNone (configFile subworkflow caller : Text) : Text × Text × Text :=
  ("Subworkflow \"" ++ subworkflow ++ "\" is called by \"" ++ caller
      ++ "\" but has no called_by field",
    "Add called_by: ['" ++ caller ++ "'] to the subworkflow trigger of '" ++ subworkflow ++ "' in "
      ++ configFile,
    "Add called_by field with '" ++ caller ++ "' for '" ++ subworkflow ++ "'")

/-- The finding on a caller that the trigger of a sub-workflow does not list. -/
def finding (w : Workspace) (folder subworkflow : Text) (trigger : TriggerConfig) (caller : Text) :
    Finding :=
  let (message, detail, description) :=
    match trigger.calledBy with
    | some listed => wordingForList w.settings.configFile subworkflow caller listed
    | none => wordingForNone w.settings.configFile subworkflow caller
  { rule := info.id
    severity := .should
    path := w.configPath folder
    message := message
    detail := some detail
    fix := some (Caller.fix description subworkflow caller)
    guideRef := some Guide.calledBy }

/-- The trigger of a sub-workflow in a configuration. -/
def trigger? (c : ProjectConfig) (subworkflow : Text) : Option TriggerConfig :=
  (c.workflow? subworkflow).bind fun w => w.triggerList.find? fun t => t.type == .subworkflow

/-- The findings on the callers of a sub-workflow. -/
def findings (w : Workspace) (folder : Text) (c : ProjectConfig)
    (called : Text × List Text) : List Finding :=
  match trigger? c called.1 with
  | none => []
  | some trigger =>
    let listed := trigger.calledBy.getD []
    (called.2.filter fun caller => !listed.contains caller).map (finding w folder called.1 trigger)

/-- Reports every caller of a sub-workflow that its trigger does not list. -/
def run (w : Workspace) (folder : Text) : Except Fault (List Finding) := do
  match ← ProjectConfig.read? w folder with
  | none => return []
  | some c =>
    let documents ← WorkflowDocument.readAll w folder
    return (WorkflowDocument.callers documents).flatMap (findings w folder c)

end WorkflowLint.Check.CalledBy
