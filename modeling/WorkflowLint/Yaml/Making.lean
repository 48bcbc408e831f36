import WorkflowLint.Text.Base64
import WorkflowLint.Yaml.Graph
import WorkflowLint.Yaml.Node
import WorkflowLint.Yaml.Numeral
import WorkflowLint.Yaml.Stamp

/-!
# Making the objects of a document

Each node of a document stands for one object, and the object has the number of its node; the pairs
of ordered mappings have no nodes of their own and are numbered after them.  A mapping can take
over the entries of other mappings under the key `<<`; its own entries win.

The objects are made level by level from the root on, so of several defects the one that is least
deep is found, and on one level the first.
-/

namespace WorkflowLint.Yaml

/-- The state while objects are made: the nodes, the objects made so far, the nodes whose
collections are still to be filled, the last one first, and the nodes that stand for the number
`.nan`. -/
structure Making where
  nodes : Array Node
  objects : Array (Option Object)
  pending : List NodeId
  nans : List NodeId

/-- A step of making objects. -/
abbrev Make := StateT Making (Except LoadError)

namespace Make

/-- The node with a number. -/
def nodeOf (id : NodeId) : Make Node := do return (← get).nodes[id]!

/-- A defect of a value at a place, possibly as part of something at another place. -/
def failAt {α : Type} (context : Option (Text × Mark)) (problem : Text) (mark : Mark) : Make α :=
  throw (.defect ⟨.construction, context.map (·.1), context.map (·.2), problem, mark⟩)

/-! ## Values of scalars -/

/-- The fault of a value that leads to itself. -/
def endless : LoadError := .fault ⟨"RecursionError", "maximum recursion depth exceeded"⟩

/-- The text of a node; a mapping has the text of its value under the key `=`.  There is none if
these keys lead back to the node. -/
def textOf : (fuel : Nat) → NodeId → Make Text
  | 0, _ => throw endless
  | fuel + 1, id => do
    let b ← get
    let n := b.nodes[id]!
    match n.content with
    | .scalar t => return t
    | .mapping entries =>
      match entries.find? fun e => b.nodes[e.1]!.tag == .value with
      | some e => textOf fuel e.2
      | none => failAt none "expected a scalar node, but found mapping" n.mark
    | .sequence _ => failAt none "expected a scalar node, but found sequence" n.mark

/-- The words for truth values. -/
def truthWords : List (Text × Bool) :=
  [("yes", true), ("no", false), ("true", true), ("false", false), ("on", true), ("off", false)]

/-- Reads a truth value, without regard to case. -/
def readBool (t : Text) : Except LoadError Atom :=
  match Keyed.get? t.lower truthWords with
  | some b => .ok (.bool b)
  | none => .error (.fault ⟨"KeyError", t.lower.quoted⟩)

/-- The wording for code points that are not ASCII, in a text that has some. -/
def notAscii (t : Text) : Text :=
  let isAscii (c : CodePoint) : Bool := c.val < 0x80
  let offset := (t.takeWhile isAscii).length
  let run := (t.drop offset).takeWhile fun c => !isAscii c
  let what : Text :=
    match run with
    | [c] => "'ascii' codec can't encode character '" ++ c.escape ++ "' in position "
      ++ Text.ofNat offset
    | _ => "'ascii' codec can't encode characters in position " ++ Text.ofNat offset ++ "-"
      ++ Text.ofNat (offset + run.length - 1)
  "failed to convert base64 data into ascii: " ++ what ++ ": ordinal not in range(128)"

/-- Reads bytes. -/
def readBinary (mark : Mark) (t : Text) : Make Atom :=
  if t.any fun c => 0x80 ≤ c.val then failAt none (notAscii t) mark
  else
    match Base64.read t with
    | .ok bytes => return .bytes bytes
    | .error e => failAt none ("failed to decode base64 data: " ++ e.message) mark

/-- Reads a date or a time; a node that is not a scalar has none. -/
def readTimestamp (n : Node) : Except LoadError Atom :=
  match n.content with
  | .scalar t => Stamp.value t
  | _ => .error (.fault ⟨"TypeError", "expected string or bytes-like object, got 'list'"⟩)

/-- The atom of a node that is not a collection. -/
def atomOf (id : NodeId) (n : Node) : Make Atom := do
  let t ←
    match n.tag with
    | .null | .bool | .integer | .real | .binary | .timestamp | .string =>
      textOf ((← get).nodes.size + 1) id
    | tag =>
      failAt none ("could not determine a constructor for the tag " ++ tag.name.quoted) n.mark
  match n.tag with
  | .bool => readBool t
  | .integer => .integer <$> Numeral.integer t
  | .real => .real <$> Numeral.real t
  | .binary => readBinary n.mark t
  | .timestamp => readTimestamp n
  | .string => return .string t
  | _ => return .null

/-- Whether a node is written as the number `.nan`. -/
def isNan (id : NodeId) (n : Node) : Make Bool := do
  if n.tag = .real then return Numeral.isNan (← textOf ((← get).nodes.size + 1) id)
  else return false

/-! ## Merging -/

/-- Whether the key of an entry asks for the entries of other mappings. -/
def isMerge (nodes : Array Node) (e : NodeId × NodeId) : Bool := nodes[e.1]!.tag == .merge

/-- The entries of a node, if it is a mapping. -/
def entriesOf (nodes : Array Node) (id : NodeId) : List (NodeId × NodeId) :=
  match nodes[id]!.content with
  | .mapping entries => entries
  | _ => []

/-- Gives a mapping other entries. -/
def setEntries (id : NodeId) (entries : List (NodeId × NodeId)) : Make Unit :=
  modify fun m =>
    { m with nodes := m.nodes.modify id fun n => { n with content := .mapping entries } }

/-- Makes the key `=` an ordinary key. -/
def plainKeys (entries : List (NodeId × NodeId)) : Make Unit :=
  entries.forM fun e => do
    if (← nodeOf e.1).tag = .value then
      modify fun m => { m with nodes := m.nodes.modify e.1 fun n => { n with tag := .string } }

/-- Removes the first key of a mapping that asks for other entries, and gives its value. -/
def takeMerge? (id : NodeId) : Make (Option NodeId) := do
  let m ← get
  let entries := entriesOf m.nodes id
  match entries.findIdx? (isMerge m.nodes) with
  | none => return none
  | some i =>
    setEntries id (entries.eraseIdx i)
    return (entries[i]?).map (·.2)

mutual

/-- Replaces the entries of a mapping by those that it takes over followed by its own.  A mapping
may ask for its own entries, so each key is removed before its value is looked at. -/
def merge : (fuel : Nat) → NodeId → Make Unit
  | 0, _ => return
  | fuel + 1, id => do
    plainKeys (entriesOf (← get).nodes id)
    let taken ← mergeAll fuel id
    if !taken.isEmpty then setEntries id (taken ++ entriesOf (← get).nodes id)

/-- The entries that a mapping takes over by its keys for that, from the first to the last. -/
def mergeAll : (fuel : Nat) → NodeId → Make (List (NodeId × NodeId))
  | 0, _ => return []
  | fuel + 1, id => do
    match ← takeMerge? id with
    | none => return []
    | some source =>
      let taken ←
        match (← nodeOf source).content with
        | .sequence sources =>
          let parts ← sources.mapM fun s => mergeFrom fuel id s "expected a mapping"
          pure parts.reverse.flatten
        | _ => mergeFrom fuel id source "expected a mapping or list of mappings"
      return taken ++ (← mergeAll fuel id)

/-- The entries that a mapping takes over from a node. -/
def mergeFrom : (fuel : Nat) → (id source : NodeId) → (expected : Text) →
    Make (List (NodeId × NodeId))
  | 0, _, _, _ => return []
  | fuel + 1, id, source, expected => do
    let s ← nodeOf source
    match s.content with
    | .mapping _ =>
      merge fuel source
      return entriesOf (← get).nodes source
    | other =>
      failAt (some ("while constructing a mapping", (← nodeOf id).mark))
        (expected ++ " for merging, but found " ++ other.name) s.mark

end

/-- Merges the entries of a mapping.  Every step into another mapping has removed a key, so the
number of all entries bounds the depth. -/
def mergeEntries (id : NodeId) : Make Unit := do
  let nodes := (← get).nodes
  if (entriesOf nodes id).any (isMerge nodes) then
    let count := nodes.foldl (fun n node =>
      match node.content with
      | .mapping entries => n + entries.length
      | _ => n) 0
    merge (3 * count + 3) id
  else plainKeys (entriesOf nodes id)

/-! ## Collections -/

/-- The collection with a tag before it is filled; other tags have none. -/
def emptyOf? : Tag → Option Object
  | .sequence => some (.list [])
  | .orderedMapping => some (.list [])
  | .pairs => some (.list [])
  | .set => some (.set [])
  | .mapping => some (.mapping [])
  | _ => none

/-- Makes the object of a node unless it is made already.  A collection is filled later. -/
def make (id : NodeId) : Make Unit := do
  let m ← get
  if m.objects[id]!.isSome then return
  match emptyOf? m.nodes[id]!.tag with
  | some o =>
    set { m with objects := m.objects.set! id (some o), pending := id :: m.pending }
  | none =>
    let n := m.nodes[id]!
    let a ← atomOf id n
    let isNan ← isNan id n
    modify fun m => { m with
      objects := m.objects.set! id (some (.atom a))
      nans := if isNan then id :: m.nans else m.nans }

/-- The atom of a node that can be a key. -/
def keyOf? (m : Making) (id : NodeId) : Option Atom := m.objects[id]!.bind Object.atom?

/-- Whether two nodes are the same key.  A number that is not equal to itself is still the same key
where it is one object; all nodes that are written `.nan` stand for one. -/
def sameKey (m : Making) (a b : NodeId) : Bool :=
  a == b || (m.nans.contains a && m.nans.contains b)
    || (match keyOf? m a, keyOf? m b with
        | some x, some y => x.sameKey y
        | _, _ => false)

/-- Adds an entry to those of a mapping, or gives an equal key another value. -/
def setEntry (m : Making) (key value : NodeId) : List (NodeId × NodeId) → List (NodeId × NodeId)
  | [] => [(key, value)]
  | e :: entries =>
    if sameKey m e.1 key then (e.1, value) :: entries else e :: setEntry m key value entries

/-- Makes the entries of a mapping. -/
def makeEntries (id : NodeId) : Make (List (NodeId × NodeId)) := do
  mergeEntries id
  let n ← nodeOf id
  match n.content with
  | .mapping entries =>
    entries.foldlM (fun made e => do
      make e.1
      if (keyOf? (← get) e.1).isNone then
        failAt (some ("while constructing a mapping", n.mark)) "found unhashable key"
          (← nodeOf e.1).mark
      make e.2
      return setEntry (← get) e.1 e.2 made) []
  | other => failAt none ("expected a mapping node, but found " ++ other.name) n.mark

/-- Makes the items of a sequence. -/
def makeItems (id : NodeId) : Make (List NodeId) := do
  let n ← nodeOf id
  match n.content with
  | .sequence items =>
    items.forM make
    return items
  | other => failAt none ("expected a sequence node, but found " ++ other.name) n.mark

/-- Adds a pair, and gives its number. -/
def addPair (first second : NodeId) : Make ObjectId := do
  let m ← get
  set { m with objects := m.objects.push (some (.pair first second)) }
  return m.objects.size

/-- Makes the pairs of a sequence of mappings with one entry each. -/
def makePairs (what : Text) (id : NodeId) : Make (List ObjectId) := do
  let n ← nodeOf id
  let context : Option (Text × Mark) := some ("while constructing " ++ what, n.mark)
  match n.content with
  | .sequence items =>
    items.mapM fun item => do
      let sub ← nodeOf item
      match sub.content with
      | .mapping [(key, value)] =>
        make key
        make value
        addPair key value
      | .mapping entries =>
        failAt context
          ("expected a single mapping item, but found " ++ Text.ofNat entries.length ++ " items")
          sub.mark
      | other =>
        failAt context ("expected a mapping of length 1, but found " ++ other.name) sub.mark
  | other => failAt context ("expected a sequence, but found " ++ other.name) n.mark

/-- The collection of a node, filled. -/
def filled (id : NodeId) : Make Object := do
  match (← nodeOf id).tag with
  | .sequence => .list <$> makeItems id
  | .orderedMapping => .list <$> makePairs "an ordered map" id
  | .pairs => .list <$> makePairs "pairs" id
  | .set => do return .set ((← makeEntries id).map (·.1))
  | _ => .mapping <$> makeEntries id

/-- Fills the collections that are pending, and those that become so, level by level. -/
def fillAll : (fuel : Nat) → Make Unit
  | 0 => return
  | fuel + 1 => do
    let m ← get
    if m.pending.isEmpty then return
    set { m with pending := [] }
    m.pending.reverse.forM fun id => do
      let o ← filled id
      modify fun m => { m with objects := m.objects.set! id (some o) }
    fillAll fuel

/-- Makes the object of a node and all objects that it consists of. -/
def makeAll (root : NodeId) : Make Unit := do
  make root
  fillAll ((← get).nodes.size + 1)

end Make

/-- The graph of a document; one without nodes is null. -/
def Document.graph (d : Document) : Except LoadError Graph :=
  match d.root with
  | none => .ok .null
  | some root =>
    let start : Making := ⟨d.nodes, Array.replicate d.nodes.size none, [], []⟩
    match (Make.makeAll root).run start with
    | .error e => .error e
    | .ok ((), m) => .ok ⟨m.objects.map fun o => o.getD default, root⟩

end WorkflowLint.Yaml
