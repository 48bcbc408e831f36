import WorkflowLint.Finding.Basic
import WorkflowLint.Workflow.Graph

/-!
# What is known about a check

A check is described by its rule and belongs to one of three kinds, by what it looks at: the graph
of a workflow, the text of a workflow file, or a whole project.
-/

namespace WorkflowLint

/-- What a check looks at. -/
inductive CheckKind where
  | graph
  | content
  | project
deriving DecidableEq

namespace CheckKind

/-- The name of a kind. -/
def name : CheckKind → Text
  | .graph => "graph"
  | .content => "content"
  | .project => "project"

/-- The name of a kind at the start of a sentence. -/
def title : CheckKind → Text
  | .graph => "Graph"
  | .content => "Content"
  | .project => "Project"

/-- The rule under which a fault of a check is reported. -/
def faultRule : CheckKind → Text
  | .graph => "GRAPH-CHECK-ERR"
  | .content => "CONTENT-CHECK-ERR"
  | .project => "PROJECT-CHECK-ERR"

end CheckKind

/-- The description of a check. -/
structure CheckInfo where
  id : Text
  name : Text
  severity : Severity
  description : Text
  details : Text := []
  fixable : Bool := false
  category : Option Text := none
  guideRef : Option GuideRef := none

/-- The description of a check of some kind as a document. -/
def CheckInfo.toJson (kind : CheckKind) (i : CheckInfo) : Json :=
  .object [("id", .string i.id), ("name", .string i.name), ("severity", .string i.severity.name),
    ("description", .string i.description), ("details", .string i.details),
    ("fixable", .bool i.fixable), ("category", (i.category.map Json.string).getD .null),
    ("kind", .string kind.name)]

/-- The finding that stands in for the findings of a check that stopped with a fault. -/
def faultFinding (kind : CheckKind) (id path : Text) (fault : Fault) : Finding where
  rule := kind.faultRule
  severity := .nit
  path := path
  message := kind.title ++ " check " ++ id ++ " failed: " ++ fault.text
  detail := some (fault.kind ++ ": " ++ fault.text)

/-- The findings of a check, or the one that stands in for them. -/
def isolated (kind : CheckKind) (id path : Text) : Except Fault (List Finding) → List Finding
  | .ok findings => findings
  | .error fault => [faultFinding kind id path fault]

/-- What a check of a graph knows besides the graph: the path of the file, and the lines of ids. -/
structure CheckContext where
  path : Text
  nodeLines : List (Text × Nat)

/-- The line of an id. -/
def CheckContext.lineOf (c : CheckContext) (id : Text) : Option Int :=
  (Keyed.get? id c.nodeLines).map Int.ofNat

/-- Texts between double quotes, separated by commas. -/
def quotedList (ts : List Text) : Text := Text.join ", " (ts.map fun t => "\"" ++ t ++ "\"")

/-- The label of a node as a text between double quotes. -/
def quotedLabels (ns : List Workflow.Node) : Text := quotedList (ns.map Workflow.Node.label)

end WorkflowLint
