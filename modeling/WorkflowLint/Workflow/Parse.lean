import WorkflowLint.Fault
import WorkflowLint.Workflow.Graph
import WorkflowLint.Workflow.Location

/-!
# Reading workflow documents

A workflow document is a JSON object with a list of nodes and an object of connections:

    "nodes": [ node, ... ],
    "connections": name → type → [ [ target, ... ], ... ]

where a connection starts at the node with the given name and each target names a node.
`Graph.parse` builds the graph of a document or says what is wrong with it; the first defect in the
order of the document decides.
-/

namespace WorkflowLint.Workflow

/-- Why a document is not a workflow. -/
inductive ParseError where
  | malformed (problem : Json.Problem) (line : Nat)
  | tooDeep
  | notObject
  | noNodes
  | nodeNotObject (position : Nat)
  | nodeWithoutType (position : Nat)
  | nodeWithoutIdentity (position : Nat)
  | paramsNotObject (id : Text)
  | connectionsNotObject
  | unknownSource (source : Text)
  | connectionNotObject (source : Text)
  | outputsNotList (source type : Text)
  | targetsNotList (source : Text) (output : Nat)
  | malformedTarget (source : Text)
  | unknownTarget (source target : Text)
deriving DecidableEq

namespace ParseError

/-- The wording of a defect. -/
def reason : ParseError → Text
  | .malformed problem _ => "Invalid JSON: " ++ problem.message
  | .tooDeep => "Invalid JSON: document is nested too deeply"
  | .notObject => "Workflow document must be a JSON object"
  | .noNodes => "Workflow document has no 'nodes' list"
  | .nodeNotObject i => "Node #" ++ Text.ofNat i ++ " is not an object"
  | .nodeWithoutType i => "Node #" ++ Text.ofNat i ++ " has no type"
  | .nodeWithoutIdentity i => "Node #" ++ Text.ofNat i ++ " has neither id nor name"
  | .paramsNotObject id => "Node '" ++ id ++ "' parameters must be an object"
  | .connectionsNotObject => "'connections' must be an object"
  | .unknownSource source => "Connection from unknown node '" ++ source ++ "'"
  | .connectionNotObject source => "Connections of '" ++ source ++ "' must be an object"
  | .outputsNotList source type =>
    "Connections '" ++ type ++ "' of '" ++ source ++ "' must be a list"
  | .targetsNotList source i =>
    "Output " ++ Text.ofNat i ++ " of '" ++ source ++ "' must be a list of targets"
  | .malformedTarget source => "Malformed connection target from '" ++ source ++ "'"
  | .unknownTarget source target =>
    "Connection from '" ++ source ++ "' to unknown node '" ++ target ++ "'"

/-- The line of a defect, if it has one. -/
def line? : ParseError → Option Nat
  | .malformed _ line => some line
  | _ => none

/-- The wording of a defect with its line. -/
def message (e : ParseError) : Text :=
  match e.line? with
  | none => e.reason
  | some line => e.reason ++ " (line " ++ Text.ofNat line ++ ")"

end ParseError

/-- Why a text gives no graph: it is not a workflow, or it has a number that cannot be read. -/
inductive ParseFailure where
  | invalid (e : ParseError)
  | tooManyDigits (count : Nat)
deriving DecidableEq

/-- The mode in which the second main output of a node is followed when the node fails. -/
def errorOutputMode : Text := "continueErrorOutput"

/-- The node of an object, `position` being its place in the list of nodes. -/
def parseNodeObject (lines : List (Text × Nat)) (position : Nat) (raw : Json.Members) :
    Except ParseError Node :=
  match raw.fullText? "type" with
  | none => .error (.nodeWithoutType position)
  | some type =>
    let name := (raw.text? "name").getD []
    let id := (raw.fullText? "id").getD name
    let node (params : Json.Members) : Node :=
      ⟨id, type, name, params, Keyed.get? id lines, raw.text? "onError"⟩
    if id.isEmpty then .error (.nodeWithoutIdentity position)
    else
      match Json.present? (raw.get? "parameters") with
      | none => .ok (node [])
      | some (.object params) => .ok (node params)
      | some _ => .error (.paramsNotObject id)

/-- The node of a raw value. -/
def parseNode (lines : List (Text × Nat)) (position : Nat) (raw : Json) :
    Except ParseError Node :=
  match raw with
  | .object members => parseNodeObject lines position members
  | _ => .error (.nodeNotObject position)

/-- The nodes of a list of raw values, the first having the given position. -/
def parseNodes (lines : List (Text × Nat)) : (position : Nat) → List Json →
    Except ParseError (List Node)
  | _, [] => .ok []
  | position, raw :: raws =>
    match parseNode lines position raw with
    | .error e => .error e
    | .ok node =>
      match parseNodes lines (position + 1) raws with
      | .error e => .error e
      | .ok nodes => .ok (node :: nodes)

/-- The first node with a name; no node is found by the empty name. -/
def named? (nodes : List Node) (name : Text) : Option Node :=
  nodes.find? fun n => !n.name.isEmpty && n.name == name

/-- The branch of the connections of a type from one output of a node. -/
def branchOf (source : Node) (type : Text) (output : Nat) : Text :=
  if type = mainBranch ∧ source.onError = some errorOutputMode ∧ output = 1 then errorBranch
  else if type.isEmpty then mainBranch
  else type

/-- The results of a step for each element, from left to right, up to the first defect. -/
def collect {α β : Type} (step : Nat → α → Except ParseError (List β)) :
    (position : Nat) → List α → Except ParseError (List β)
  | _, [] => .ok []
  | position, a :: as =>
    match step position a with
    | .error e => .error e
    | .ok bs =>
      match collect step (position + 1) as with
      | .error e => .error e
      | .ok rest => .ok (bs ++ rest)

/-- The connection to one target. -/
def parseTarget (nodes : List Node) (source : Node) (sourceName type : Text) (output : Nat)
    (raw : Json) : Except ParseError (List Edge) :=
  match raw with
  | .object ms =>
    match Json.Members.text? ms "node" with
    | none => .error (.malformedTarget sourceName)
    | some targetName =>
      match named? nodes targetName with
      | none => .error (.unknownTarget sourceName targetName)
      | some target => .ok [⟨source.id, target.id, branchOf source type output, output⟩]
  | _ => .error (.malformedTarget sourceName)

/-- The connections of one output; an output may be null. -/
def parseOutput (nodes : List Node) (source : Node) (sourceName type : Text) (output : Nat)
    (raw : Json) : Except ParseError (List Edge) :=
  match raw with
  | .null => .ok []
  | .array targets =>
    collect (fun _ => parseTarget nodes source sourceName type output) 0 targets
  | _ => .error (.targetsNotList sourceName output)

/-- The connections of one type. -/
def parseType (nodes : List Node) (source : Node) (sourceName : Text) (member : Text × Json) :
    Except ParseError (List Edge) :=
  match member.2 with
  | .array outputs => collect (parseOutput nodes source sourceName member.1) 0 outputs
  | _ => .error (.outputsNotList sourceName member.1)

/-- The connections from one node. -/
def parseSource (nodes : List Node) (member : Text × Json) : Except ParseError (List Edge) :=
  match named? nodes member.1 with
  | none => .error (.unknownSource member.1)
  | some source =>
    match member.2 with
    | .object byType => collect (fun _ => parseType nodes source member.1) 0 byType
    | _ => .error (.connectionNotObject member.1)

/-- All connections; there may be none. -/
def parseEdges (nodes : List Node) : Option Json → Except ParseError (List Edge)
  | none => .ok []
  | some .null => .ok []
  | some (.object ms) => collect (fun _ => parseSource nodes) 0 ms
  | some _ => .error .connectionsNotObject

/-- The graph of a document. -/
def Graph.ofDocument (text : Text) (document : Json) : Except ParseError Graph :=
  match document with
  | .object ms =>
    match Json.Members.get? ms "nodes" with
    | some (.array raws) =>
      match parseNodes (locate text (raws.filterMap Json.members?)) 0 raws with
      | .error e => .error e
      | .ok nodes =>
        match parseEdges nodes (Json.Members.get? ms "connections") with
        | .error e => .error e
        | .ok edges => .ok ⟨nodes, edges, Json.Members.text? ms "name"⟩
    | _ => .error .noNodes
  | _ => .error .notObject

/-- The graph of a workflow document. -/
def Graph.parse (text : Text) : Except ParseFailure Graph :=
  match Json.read text with
  | .error (.malformed problem ahead) =>
    .error (.invalid (.malformed problem (Json.lineOf text ahead)))
  | .error (.tooDeep _) => .error (.invalid .tooDeep)
  | .error (.tooManyDigits count) => .error (.tooManyDigits count)
  | .ok document =>
    match Graph.ofDocument text document with
    | .error e => .error (.invalid e)
    | .ok g => .ok g

end WorkflowLint.Workflow
