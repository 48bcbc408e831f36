import WorkflowLint.Check.Info

/-!
# Tracking of executions

A workflow that is not called by another one reports its progress: right after its trigger comes a
node that opens the report (INIT-REQUIRED), and every path ends with a node that closes it
(SUBMIT-RESULT).
-/

namespace WorkflowLint.Check

open Workflow

/-- The operation of a node. -/
def operation (n : Node) : Text := (n.params.text? "operation").getD []

/-- Whether a node tracks executions and does one of some operations. -/
def tracks (operations : List Text) (n : Node) : Bool :=
  NodeKind.isCodika n.type && operations.contains (operation n)

/-- Whether a node opens the report of an execution. -/
def opensReport (n : Node) : Bool := tracks ["initWorkflow", "initDataIngestion"] n

/-- Whether a node closes the report of an execution. -/
def closesReport (n : Node) : Bool := tracks ["submitResult", "reportError"] n

/-- The trigger of a workflow that is not called by another one. -/
def parentTrigger? (g : Graph) : Option Node :=
  g.trigger?.filter fun n => !NodeKind.isSubworkflowTrigger n.type

namespace InitRequired

/-- The description of the check. -/
def info : CheckInfo where
  id := "INIT-REQUIRED"
  name := "init_required"
  severity := .must
  description := "Parent workflows must have an init node directly after the trigger"
  details :=
    "Add a Codika node with operation initWorkflow or initDataIngestion right after the trigger"
  category := some "codika"

/-- Reports a trigger after which no node opens the report. -/
def run (g : Graph) (c : CheckContext) : List Finding :=
  match parentTrigger? g with
  | none => []
  | some trigger =>
    let second := g.successors trigger.id
    if second.isEmpty || second.any opensReport then []
    else
      [{ rule := info.id
         severity := .must
         path := c.path
         message :=
          "Workflow must have Codika Init as the second node. Found: " ++ quotedLabels second
         detail := some <|
          "Add a Codika Init node (operation: initWorkflow or initDataIngestion) immediately after "
          ++ "the trigger \"" ++ trigger.label ++ "\". Execution tracking starts at this node."
         line := c.lineOf trigger.id
         nodeId := some trigger.id }]

end InitRequired

namespace SubmitResult

/-- The description of the check. -/
def info : CheckInfo where
  id := "SUBMIT-RESULT"
  name := "submit_result"
  severity := .must
  description := "Parent workflows must end every path with Submit Result or Report Error"
  details := "Success paths end in operation submitResult, error paths in operation reportError"
  category := some "codika"

/-- The nodes at which a path ends without closing the report. -/
def openEnds (g : Graph) (trigger : Node) : List Node :=
  g.terminals.filter fun n => n.id != trigger.id && !closesReport n

/-- Reports the nodes at which a path ends without closing the report, on the first of them. -/
def run (g : Graph) (c : CheckContext) : List Finding :=
  match parentTrigger? g with
  | none => []
  | some trigger =>
    match openEnds g trigger with
    | [] => []
    | first :: others =>
      [{ rule := info.id
         severity := .must
         path := c.path
         message :=
          "Workflow paths end without Codika Submit Result or Report Error: "
          ++ quotedLabels (first :: others)
         detail := some <| ↑(
          "Add a Codika node with operation submitResult at the end of success paths and one with "
          ++ "operation reportError at the end of error paths.")
         line := c.lineOf first.id
         nodeId := some first.id }]

end SubmitResult

end WorkflowLint.Check
