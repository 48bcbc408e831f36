import WorkflowLint.Check.Info
import WorkflowLint.Finding.Guide

/-!
# Running scheduled workflows by hand

A scheduled workflow also has a webhook, connected to a node to which the schedule trigger is
connected, so that it can be run by hand (SCHEDULE-WEBHOOK-CONVERGENCE).
-/

namespace WorkflowLint.Check.ScheduleWebhook

open Workflow

/-- The description of the check. -/
def info : CheckInfo where
  id := "SCHEDULE-WEBHOOK-CONVERGENCE"
  name := "schedule_webhook_convergence"
  severity := .must
  description := "Scheduled workflows need a webhook that connects to the same downstream node"
  details :=
    "Add a webhook node for manual runs and connect it where the schedule trigger connects"
  category := some "triggers"
  guideRef := some Guide.scheduleWebhook

/-- The schedule triggers. -/
def schedules (g : Graph) : List Node :=
  g.nodes.filter fun n => n.type.lower.hasPart "scheduletrigger"

/-- The webhooks. -/
def webhooks (g : Graph) : List Node := g.nodes.filter fun n => n.type.lower.hasPart "webhook"

/-- The ids to which a node is connected. -/
def targets (g : Graph) (id : Text) : List Text := (g.outgoing id).map (·.target)

/-- The labels of the nodes to which a node is connected. -/
def targetLabels (g : Graph) (n : Node) : Text :=
  Text.join ", " ((g.successors n.id).map Node.label)

/-- Whether two nodes are connected to the same node. -/
def converge (g : Graph) (m n : Node) : Bool :=
  (targets g m.id).any fun t => (targets g n.id).contains t

/-- The targets of a webhook as a message shows them. -/
def webhookShown (g : Graph) (w : Node) : Text :=
  let labels := targetLabels g w
  "\"" ++ w.name ++ "\" -> [" ++ (if labels.isEmpty then ↑"no connections" else labels) ++ "]"

/-- A finding on a schedule trigger. -/
def finding (c : CheckContext) (schedule : Node) (message detail : Text) : Finding where
  rule := info.id
  severity := .must
  path := c.path
  message := message
  detail := some (detail ++ "\n\nSee documentation: " ++ Guide.scheduleWebhook.format)
  line := c.lineOf schedule.id
  nodeId := some schedule.id
  guideRef := some Guide.scheduleWebhook

/-- The finding on a schedule trigger of a workflow without webhooks. -/
def missingWebhook (c : CheckContext) (schedule : Node) : Finding :=
  finding c schedule
    ("Schedule trigger \"" ++ schedule.name ++ "\" requires a webhook node for manual execution")
    ↑("Add a webhook node and connect it to the same downstream node as the schedule trigger.")

/-- The finding on a schedule trigger that no webhook meets. -/
def notConverging (g : Graph) (c : CheckContext) (schedule : Node) : Finding :=
  finding c schedule
    ("Schedule trigger \"" ++ schedule.name
      ++ "\" and webhook(s) do not connect to the same downstream node")
    ("Schedule trigger \"" ++ schedule.name ++ "\" connects to: [" ++ targetLabels g schedule
      ++ "]\nWebhook connections: " ++ Text.join ", " ((webhooks g).map (webhookShown g))
      ++ "\n\nConnect both triggers to the same downstream node.")

/-- Reports every schedule trigger if there is no webhook, and else the connected ones that no
webhook meets. -/
def run (g : Graph) (c : CheckContext) : List Finding :=
  if (webhooks g).isEmpty then (schedules g).map (missingWebhook c)
  else
    ((schedules g).filter fun s =>
      !(targets g s.id).isEmpty && !(webhooks g).any fun w => converge g s w).map
        (notConverging g c)

end WorkflowLint.Check.ScheduleWebhook
