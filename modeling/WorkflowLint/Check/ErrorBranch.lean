import WorkflowLint.Check.Info

/-!
# Error branches

A node that can fail needs a path for its failures: a connection on the error branch, or one to a
node that handles errors (ERROR-BRANCH-REQUIRED).
-/

namespace WorkflowLint.Check

open Workflow

/-- What the types of nodes that can fail have in them: calls of services, changes of data, and
executions. -/
def riskyWords : List Text :=
  ["http", "request", "google", "facebook", "ads",
    "write", "insert", "update", "delete", "post", "put", "patch", "database", "mongo", "supabase",
    "sheet",
    "execute", "workflow", "function"]

/-- The types of nodes that run inside another node and have no error output. -/
def innerNodeWords : List Text :=
  ["langchain.lmchat", "langchain.outputparser", "langchain.memory", "langchain.embeddings",
    "langchain.document", "langchain.vectorstore", "langchain.toolcode", "langchain.toolworkflow"]

/-- Whether a node can fail. -/
def isErrorProne (n : Node) : Bool :=
  !NodeKind.isTrigger n.type && !Text.containsIgnoringCase innerNodeWords n.type
    && Text.containsIgnoringCase riskyWords n.type

/-- Whether a node handles errors, by its type or its name. -/
def isErrorHandler (n : Node) : Bool :=
  Text.containsIgnoringCase ["stopanderror", "errorhandler", "raiseerror"] n.type
    || n.name.lower.hasPart "stop and error" || n.name.lower.hasPart "error handler"

/-- Whether a connection leads to a path for failures. -/
def leadsToHandling (g : Graph) (e : Edge) : Bool :=
  e.isError || (g.nodeById? e.target).any isErrorHandler

namespace ErrorBranch

/-- The description of the check. -/
def info : CheckInfo where
  id := "ERROR-BRANCH-REQUIRED"
  name := "error_branch_required"
  severity := .must
  description := "Error-prone nodes must have an error branch for failure handling"
  details := ↑(
    "Set onError: \"continueErrorOutput\" on the node and connect its second output "
    ++ "to an error handler")
  category := some "reliability"

/-- Whether a node has a path for its failures. -/
def hasErrorPath (g : Graph) (n : Node) : Bool := (g.outgoing n.id).any (leadsToHandling g)

/-- The finding on a node without a path for its failures. -/
def finding (c : CheckContext) (n : Node) : Finding where
  rule := info.id
  severity := .must
  path := c.path
  message := "Node " ++ n.label ++ " has no error branch (add a red connector to handler)"
  detail := some <|
    "Add error handling for \"" ++ n.label ++ "\" (type: " ++ n.type ++ ").\n\n"
    ++ "Option 1: Set onError: \"continueErrorOutput\" on the node and connect the second output "
    ++ "(index 1) to an error handler.\nOption 2: Connect the node to a Stop And Error node."
  line := c.lineOf n.id
  nodeId := some n.id

/-- Reports every node that can fail and has no path for its failures. -/
def run (g : Graph) (c : CheckContext) : List Finding :=
  (g.nodes.filter fun n => isErrorProne n && !hasErrorPath g n).map (finding c)

end ErrorBranch

end WorkflowLint.Check
