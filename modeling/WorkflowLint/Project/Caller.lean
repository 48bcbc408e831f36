import WorkflowLint.Project.Definition
import WorkflowLint.Finding.Fix
import WorkflowLint.Placeholder.Token
import WorkflowLint.Yaml.Load
import WorkflowLint.Yaml.Printer

/-!
# Callers of sub-workflows

A workflow calls the sub-workflows that placeholders in its file refer to.  The trigger of a
sub-workflow lists the callers in the configuration of the project, and `Caller.fix` adds one to
that list.

The configuration is written anew, so comments are lost.  A trigger that occurs at several places
of the configuration by an alias gets the new list at all of them.
-/

namespace WorkflowLint.Caller

open Yaml (Graph)

/-! ## Finding calls -/

/-- The ids of sub-workflows that a text refers to, with the caller's own id. -/
def calls (caller : Text) (t : Text) : List (Text × Text) :=
  (Placeholder.references t).map fun r => (r.2.name, caller)

/-- The callers of every sub-workflow that is called, in the order of the calls.  Each document has
its id and its text. -/
def ofDocuments (documents : List (Text × Text)) : List (Text × List Text) :=
  (documents.flatMap fun d => calls d.1 d.2).foldl
    (fun callers call =>
      Keyed.update call.1 [] (fun ids => if ids.contains call.2 then ids else ids ++ [call.2])
        callers) []

/-! ## Adding a caller -/

/-- Whether the value of a key is the given text. -/
def hasText (g : Graph) (key t : Text) : Bool := (g.get? key).any fun v => v.isText t

/-- The items of the list that a key of a mapping has; there are none if it has no list. -/
def itemsOf (g : Graph) (key : Text) : List Graph := ((g.get? key).bind Graph.items?).getD []

/-- The first trigger of a workflow that makes it a sub-workflow. -/
def trigger? (workflow : Graph) : Option Graph :=
  (itemsOf workflow "triggers").find? fun t => hasText t "type" "subworkflow"

/-- The trigger of the first workflow with an id, if that is a sub-workflow. -/
def triggerOf? (subworkflow : Text) (configuration : Graph) : Option Graph := do
  let workflows := itemsOf configuration "workflows"
  trigger? (← workflows.find? fun w => hasText w "workflow_template_id" subworkflow)

/-- A configuration in which the trigger with a number lists some callers and one more. -/
def setCallers (trigger : Yaml.ObjectId) (listed : List Yaml.ObjectId) (caller : Text)
    (configuration : Graph) : Graph :=
  let (g, key) := configuration.addAtom (.string "called_by")
  let (g, last) := g.addAtom (.string caller)
  let (g, callers) := g.add (.list (listed ++ [last]))
  g.setEntry trigger key callers

/-- A configuration with one more caller of a sub-workflow; nothing if there is none to add. -/
def add? (subworkflow caller : Text) (configuration : Graph) : Option Graph := do
  let trigger ← triggerOf? subworkflow configuration
  let listed := itemsOf trigger "called_by"
  if listed.any fun v => v.isText caller then none
  else some (setCallers trigger.root (listed.map (·.root)) caller configuration)

/-- The text of a configuration with one more caller of a sub-workflow.  A text that is not YAML
stays as it is, and so does one in which there is nothing to add. -/
def addToText (subworkflow caller t : Text) : Fix.Outcome :=
  match Yaml.load .given t with
  | .error (.fault f) => .fault f
  | .error _ => .text t
  | .ok g =>
    match add? subworkflow caller g with
    | none => .text t
    | some g =>
      match Yaml.print? g with
      | .error f => .fault f
      | .ok t => .text t

/-- Adds a caller to the list of a sub-workflow. -/
def fix (description subworkflow caller : Text) : Fix := ⟨description, addToText subworkflow caller⟩

end WorkflowLint.Caller
