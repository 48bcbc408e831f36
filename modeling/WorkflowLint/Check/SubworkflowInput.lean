import WorkflowLint.Check.Info
import WorkflowLint.Finding.Guide

/-!
# Inputs of sub-workflows

The trigger of a sub-workflow declares the inputs that its callers fill in, and there has to be at
least one (SUBWKFL-MIN-PARAMS).
-/

namespace WorkflowLint.Check

open Workflow

/-- The number of values listed under a parameter. -/
def listedValues? (params : Json.Members) (name : Text) : Option Nat := do
  let members ← (← params.get? name).members?
  let items ← (← Json.Members.get? members "values").items?
  pure items.length

/-- The number of inputs that a trigger declares, directly or by a schema defined below it. -/
def inputCount (n : Node) : Nat :=
  match listedValues? n.params "workflowInputs" with
  | some count => count
  | none =>
    if n.params.text? "inputSource" = some ↑"defineBelow" then
      (listedValues? n.params "schema").getD 0
    else 0

namespace SubworkflowInput

/-- The description of the check. -/
def info : CheckInfo where
  id := "SUBWKFL-MIN-PARAMS"
  name := "subworkflow_min_params"
  severity := .must
  description := "Sub-workflows must have at least 1 input parameter"
  details := "n8n enforces minRequiredFields: 1 on the Execute Workflow Trigger node"
  category := some "subworkflow"
  guideRef := some Guide.subworkflowParams

/-- Reports the first trigger of a sub-workflow if it declares no input. -/
def run (g : Graph) (c : CheckContext) : List Finding :=
  match g.nodes.find? fun n => NodeKind.isSubworkflowTrigger n.type with
  | none => []
  | some trigger =>
    if 1 ≤ inputCount trigger then []
    else
      [{ rule := info.id
         severity := .must
         path := c.path
         message :=
          "Sub-workflow must have at least 1 input parameter, found "
          ++ Text.ofNat (inputCount trigger)
         detail := some <| ↑(
          "Add at least one entry to workflowInputs.values on the Execute Workflow Trigger node. "
          ++ "Without it n8n fails with \"At least 1 field is required.\"")
         line := c.lineOf trigger.id
         nodeId := some trigger.id
         guideRef := some Guide.subworkflowParams }]

end SubworkflowInput

end WorkflowLint.Check
