import WorkflowLint.Text.Case

/-!
# Kinds of nodes

What the type of a workflow node says about its role.  Types are compared without regard to case,
except for the two exact types of webhook and schedule triggers.
-/

namespace WorkflowLint

/-- The ways in which a workflow is started. -/
inductive TriggerCategory where
  | webhook
  | schedule
  | subworkflow
  | service
deriving DecidableEq

namespace TriggerCategory

/-- The name of a category in messages. -/
def name : TriggerCategory → Text
  | .webhook => "webhook"
  | .schedule => "schedule"
  | .subworkflow => "subworkflow"
  | .service => "service_trigger"

end TriggerCategory

namespace NodeKind

/-- The type of webhook nodes. -/
def webhook : Text := "n8n-nodes-base.webhook"

/-- The type of schedule triggers. -/
def schedule : Text := "n8n-nodes-base.scheduleTrigger"

/-- Whether a type is that of a node that starts a workflow. -/
def isTrigger (type : Text) : Bool :=
  let type := type.lower
  type.hasPart "trigger" || type.hasPart "webhook" || List.isSuffixOf (".start" : Text) type

/-- Whether a type is that of a node that starts a sub-workflow. -/
def isSubworkflowTrigger (type : Text) : Bool := type.lower.hasPart "executeworkflowtrigger"

/-- Whether a type is that of a note. -/
def isStickyNote (type : Text) : Bool := type.lower.hasPart "stickynote"

/-- Whether a type belongs to the nodes that track executions. -/
def isCodika (type : Text) : Bool := type.lower.hasPart "codika"

/-- The category of a type that starts a workflow. -/
def category? (type : Text) : Option TriggerCategory :=
  if type = webhook then some .webhook
  else if type = schedule then some .schedule
  else if isSubworkflowTrigger type then some .subworkflow
  else if type.lower.hasPart "trigger" then some .service
  else none

end NodeKind
end WorkflowLint
