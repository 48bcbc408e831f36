import WorkflowLint.Check.Info
import WorkflowLint.Workflow.Location

/-!
# Checks of workflow documents

What the checks share that look at a workflow file as a JSON document: its nodes as objects, and
the rule that a text which is no object has no findings.
-/

namespace WorkflowLint.Check

/-- The nodes of a document that are objects. -/
def nodeObjects (document : Json.Members) : List Json.Members :=
  match document.get? "nodes" with
  | some (.array items) => items.filterMap Json.members?
  | _ => []

/-- Changes the nodes of a document that are objects. -/
def mapNodes (change : Json.Members → Json.Members) (document : Json.Members) : Json.Members :=
  match document.get? "nodes" with
  | some (.array items) =>
    document.set "nodes" <| .array <| items.map fun item =>
      match item with
      | .object node => .object (change node)
      | other => other
  | _ => document

/-- The findings on a text that is a document; any other text has none. -/
def onDocument (t : Text) (findings : Json.Members → List Finding) : Except Fault (List Finding) :=
  match Json.readObject t with
  | .error e => .error (.ofReadError t e)
  | .ok none => .ok []
  | .ok (some document) => .ok (findings document)

/-- A member of a node as a message shows it; a member that is missing counts as null. -/
def memberShown (node : Json.Members) (name : Text) : Text := ((node.get? name).getD .null).shown

end WorkflowLint.Check
