import WorkflowLint.Check.Document
import WorkflowLint.Json.Equality
import WorkflowLint.Text.Slug

/-!
# Ids of webhooks

A webhook node needs an id under which its path is registered (WEBHOOK-ID).  The fix gives every
webhook of a name that has none the slug of that name.
-/

namespace WorkflowLint.Check.WebhookId

/-- The description of the check. -/
def info : CheckInfo where
  id := "WEBHOOK-ID"
  name := "webhook_id"
  severity := .must
  description := "Webhook nodes must have a webhookId property"
  details := "Without webhookId the webhook path is never registered in production"
  fixable := true
  category := some "webhook"

/-- Whether a node is a webhook without an id. -/
def lacksId (node : Json.Members) : Bool :=
  ((node.get? "type").any fun v => v.isText NodeKind.webhook)
    && (node.fullText? "webhookId").isNone

/-- The name of a node; a name that is missing counts as null. -/
def nameOf (node : Json.Members) : Json := (node.get? "name").getD .null

/-- Whether two names are equal; a name that is not a number equals none. -/
def sameName : Json → Json → Bool
  | .real .nan, .real .nan => false
  | a, b => Json.same a b

/-- The id that a webhook of a name gets. -/
def generated (name : Json) : Text :=
  match name with
  | .string s => Text.slug (if s.isEmpty then ↑"webhook" else s)
  | _ => Text.slug "webhook"

/-- Gives an id to the webhooks of a name that have none. -/
def addId (name : Json) : Json.Members → Json.Members :=
  mapNodes fun node =>
    if lacksId node ∧ sameName (nameOf node) name then
      node.set "webhookId" (.string (generated name))
    else node

/-- The finding on a webhook without an id. -/
def finding (places : Workflow.Places) (path : Text) (node : Json.Members) : Finding :=
  let name := nameOf node
  { rule := info.id
    severity := .must
    path := path
    message := "Webhook node \"" ++ name.shown ++ "\" is missing webhookId property"
    detail := some <|
      "Add \"webhookId\": \"" ++ generated name
      ++ "\" to the node object (sibling to name/type/parameters)"
    line := (places.nodeLine? node).map Int.ofNat
    nodeId := node.text? "id"
    fix := some <| .ofEdit
      ("Add webhookId \"" ++ generated name ++ "\" to webhook node \"" ++ name.shown ++ "\"")
      (addId name) }

/-- Reports every webhook without an id. -/
def run (t path : Text) : Except Fault (List Finding) :=
  onDocument t fun document =>
    ((nodeObjects document).filter lacksId).map (finding (Workflow.Places.of t) path)

end WorkflowLint.Check.WebhookId
