import WorkflowLint.Json.Value
import WorkflowLint.Workflow.NodeKind

/-!
# Workflow graphs

The nodes of a workflow and the connections between them.  Nodes are referred to by their ids, and
where several nodes share an id it stands for the first of them.
-/

namespace WorkflowLint.Workflow

/-- A step of a workflow. -/
structure Node where
  id : Text
  type : Text
  name : Text
  params : Json.Members
  line : Option Nat
  onError : Option Text

/-- The name of a node, or its type if it has no name. -/
def Node.label (n : Node) : Text := if n.name.isEmpty then n.type else n.name

/-- A connection from one output of a node to another node. -/
structure Edge where
  source : Text
  target : Text
  branch : Text
  output : Nat
deriving DecidableEq

/-- The branch of ordinary connections. -/
def mainBranch : Text := "main"

/-- The branch of connections that are followed when a node fails. -/
def errorBranch : Text := "error"

/-- Whether a connection is on the error branch. -/
def Edge.isError (e : Edge) : Bool := e.branch == errorBranch

/-- The nodes and connections of a workflow. -/
structure Graph where
  nodes : List Node
  edges : List Edge
  name : Option Text

namespace Graph

/-- The node with an id. -/
def nodeById? (g : Graph) (id : Text) : Option Node := g.nodes.find? fun n => n.id == id

/-- The node with a name. -/
def nodeByName? (g : Graph) (name : Text) : Option Node := g.nodes.find? fun n => n.name == name

/-- The connections that start at a node. -/
def outgoing (g : Graph) (id : Text) : List Edge := g.edges.filter fun e => e.source == id

/-- The connections that end at a node. -/
def incoming (g : Graph) (id : Text) : List Edge := g.edges.filter fun e => e.target == id

/-- The nodes directly after a node, each once, in the order of the connections. -/
def successors (g : Graph) (id : Text) : List Node :=
  (Keyed.distinct ((g.outgoing id).map (·.target))).filterMap g.nodeById?

/-- The nodes to which no connection leads. -/
def roots (g : Graph) : List Node :=
  g.nodes.filter fun n => !g.edges.any fun e => e.target == n.id

/-- The nodes, other than notes, from which no connection leads on. -/
def terminals (g : Graph) : List Node :=
  g.nodes.filter fun n =>
    !(g.edges.any fun e => e.source == n.id) && !NodeKind.isStickyNote n.type

/-- The line of each id that has one; of several nodes with an id the last one decides. -/
def nodeLines (g : Graph) : List (Text × Nat) :=
  Keyed.ofPairs (g.nodes.filterMap fun n => n.line.map fun line => (n.id, line))

/-- The node that starts the workflow: among the nodes to which no connection leads the first one
with the type of a trigger, or else the first one that is not a note. -/
def trigger? (g : Graph) : Option Node :=
  match g.roots.find? fun n => NodeKind.isTrigger n.type with
  | some n => some n
  | none => g.roots.find? fun n => !NodeKind.isStickyNote n.type

end Graph
end WorkflowLint.Workflow
