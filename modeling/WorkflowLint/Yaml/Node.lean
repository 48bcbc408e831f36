import WorkflowLint.Keyed
import WorkflowLint.Text.Quoted
import WorkflowLint.Yaml.Tag
import WorkflowLint.Yaml.Tokens

/-!
# The nodes of a document

A document is a graph of nodes: an alias is the node of its anchor once more, so a node may occur at
several places and even inside itself.  The nodes are numbered in the order in which they start, and
refer to one another by their numbers.

`Document.read` reads the nodes of a text that has at most one document.
-/

namespace WorkflowLint.Yaml

/-- The number of a node. -/
abbrev NodeId := Nat

/-- What a node consists of. -/
inductive Content where
  | scalar (t : Text)
  | sequence (items : List NodeId)
  | mapping (entries : List (NodeId × NodeId))

/-- What the content of a node is called in messages. -/
def Content.name : Content → Text
  | .scalar _ => "scalar"
  | .sequence _ => "sequence"
  | .mapping _ => "mapping"

/-- A node: its tag, the place where it starts, and its content. -/
structure Node where
  tag : Tag
  mark : Mark
  content : Content

instance : Inhabited Node := ⟨⟨.null, ⟨0, 0, 0⟩, .scalar []⟩⟩

/-- A document: all its nodes, and the one that the others are part of unless there is none. -/
structure Document where
  nodes : Array Node
  root : Option NodeId

/-- The state while nodes are read: the tokens ahead and the defect that ends them, what the handles
of tags stand for, the nodes read so far, and those that have anchors. -/
structure Builder where
  ahead : List Token
  stop : Option LoadError
  handles : List (Text × Text)
  nodes : Array Node
  anchors : List (Text × NodeId)

/-- A step of reading nodes. -/
abbrev Build := StateT Builder (Except LoadError)

namespace Build

/-! ## Tokens -/

/-- The next token. -/
def peek : Build Token := fun b =>
  match b.ahead, b.stop with
  | t :: _, _ => .ok (t, b)
  | [], some e => .error e
  | [], none => .ok (⟨.streamEnd, ⟨0, 0, 0⟩, ⟨0, 0, 0⟩⟩, b)

/-- Goes on to the token after the next. -/
def skip : Build Unit := modify fun b => { b with ahead := b.ahead.tail }

/-- Whether the next token is one of some. -/
def nextIn (kinds : List TokenKind) : Build Bool := do return kinds.contains (← peek).kind

/-- A defect in the order of the tokens. -/
def failAt {α : Type} (context : Option (Text × Mark)) (problem : Text) (mark : Mark) : Build α :=
  throw (.defect ⟨.grammar, context.map (·.1), context.map (·.2), problem, mark⟩)

/-- A defect of anchors and aliases. -/
def failName {α : Type} (context : Option (Text × Mark)) (problem : Text) (mark : Mark) : Build α :=
  throw (.defect ⟨.composition, context.map (·.1), context.map (·.2), problem, mark⟩)

/-- Expects one of the tokens that can end or go on with a collection. -/
def failCollection {α : Type} (what : Text) (start : Mark) (expected : Text) : Build α := do
  let t ← peek
  failAt (some ("while parsing a " ++ what, start)) (expected ++ t.kind.name.quoted) t.start

/-! ## Nodes and their properties -/

/-- The properties that may come before the content of a node, and where they start. -/
structure Properties where
  anchor : Option Text := none
  tag : Option (Option Text × Text) := none
  start : Option Mark := none
  tagMark : Option Mark := none

/-- Reads an anchor if one is next. -/
def readAnchorInto (p : Properties) : Build Properties := do
  let t ← peek
  match t.kind with
  | .anchor name => do
    skip
    return { p with anchor := some name, start := p.start.or (some t.start) }
  | _ => return p

/-- Reads a tag if one is next. -/
def readTagInto (p : Properties) : Build Properties := do
  let t ← peek
  match t.kind with
  | .tag handle rest => do
    skip
    return { p with
      tag := some (handle, rest), start := p.start.or (some t.start), tagMark := some t.start }
  | _ => return p

/-- Reads an anchor and a tag, in either order. -/
def readProperties : Build Properties := do
  let p ← readAnchorInto {}
  if p.anchor.isSome then readTagInto p
  else
    let p ← readTagInto p
    if p.tag.isSome then readAnchorInto p else return p

/-- The name of a tag, in which the handle is replaced by what it stands for. -/
def expandTag (p : Properties) : Build (Option Text) := do
  match p.tag with
  | none => return none
  | some (none, rest) => return some rest
  | some (some handle, rest) =>
    match Keyed.get? handle (← get).handles with
    | some start => return some (start ++ rest)
    | none =>
      failAt (p.start.map fun m => ("while parsing a node", m))
        ("found undefined tag handle " ++ handle.quoted) (p.tagMark.getD ⟨0, 0, 0⟩)

/-- Adds a node, which may have an anchor. -/
def add (anchor : Option Text) (n : Node) : Build NodeId := do
  let b ← get
  match anchor with
  | none => pure ()
  | some name =>
    match Keyed.get? name b.anchors with
    | none => pure ()
    | some first =>
      failName (some ("found duplicate anchor " ++ name.quoted ++ "; first occurrence",
        b.nodes[first]!.mark)) "second occurrence" n.mark
  let id := b.nodes.size
  set { b with
    nodes := b.nodes.push n
    anchors := match anchor with
      | none => b.anchors
      | some name => Keyed.set name id b.anchors }
  return id

/-- Gives a node its content. -/
def fill (id : NodeId) (content : Content) : Build NodeId := do
  modify fun b => { b with nodes := b.nodes.modify id fun n => { n with content } }
  return id

/-- Adds a node that is not written: a null. -/
def addMissing (mark : Mark) : Build NodeId := add none ⟨.null, mark, .scalar []⟩

/-- The node of an alias. -/
def findAlias (name : Text) (mark : Mark) : Build NodeId := do
  match Keyed.get? name (← get).anchors with
  | some id => return id
  | none => failName none ("found undefined alias " ++ name.quoted) mark

/-- Whether a tag leaves it to the form of the node what it is. -/
def isImplicit (tag : Option Text) : Bool := tag.all fun t => t == Text.ofChar '!'

/-- The tag of a collection. -/
def collectionTag (tag : Option Text) (default : Tag) : Tag :=
  if isImplicit tag then default else (tag.map Tag.ofName).getD default

/-- The tag of a scalar. -/
def scalarTag (tag : Option Text) (text : Text) (plain : Bool) : Tag :=
  match tag with
  | none => if plain then Tag.ofPlain text else .string
  | some name => if name = Text.ofChar '!' then Tag.ofPlain text else Tag.ofName name

/-- Reads a node unless one of some tokens is next, in which case the node is missing. -/
def nodeUnless (ends : List TokenKind) (missing : Mark) (node : Build NodeId) : Build NodeId := do
  if ← nextIn ends then addMissing missing else node

/-- Reads what comes after a colon, if a colon is next. -/
def valueUnless (ends : List TokenKind) (node : Build NodeId) : Build NodeId := do
  let t ← peek
  if t.kind = .value then
    skip
    nodeUnless ends t.stop node
  else addMissing t.start

mutual

/-- Reads a node.  In a block it may be a block collection, and if `indentless` holds then the items
of a sequence may follow without being indented. -/
def node : (fuel : Nat) → (inBlock indentless : Bool) → Build NodeId
  | 0, _, _ => do addMissing (← peek).start
  | fuel + 1, inBlock, indentless => do
    let first ← peek
    match first.kind with
    | .alias name =>
      skip
      findAlias name first.start
    | _ =>
      let p ← readProperties
      let tag ← expandTag p
      let t ← peek
      let start := p.start.getD t.start
      let sequence (items : Build (List NodeId)) : Build NodeId := do
        let id ← add p.anchor ⟨collectionTag tag .sequence, start, .sequence []⟩
        fill id (.sequence (← items))
      let mapping (entries : Build (List (NodeId × NodeId))) : Build NodeId := do
        let id ← add p.anchor ⟨collectionTag tag .mapping, start, .mapping []⟩
        fill id (.mapping (← entries))
      match t.kind, inBlock, indentless with
      | .blockEntry, _, true => sequence (indentlessItems fuel)
      | .scalar text plain, _, _ =>
        skip
        add p.anchor ⟨scalarTag tag text plain, start, .scalar text⟩
      | .flowSequenceStart, _, _ => sequence do skip; flowItems fuel t.start true
      | .flowMappingStart, _, _ => mapping do skip; flowEntries fuel t.start true
      | .blockSequenceStart, true, _ => sequence do skip; blockItems fuel t.start
      | .blockMappingStart, true, _ => mapping do skip; blockEntries fuel t.start
      | _, _, _ =>
        if p.anchor.isSome ∨ tag.isSome then
          add p.anchor ⟨scalarTag tag [] true, start, .scalar []⟩
        else
          let form : Text := if inBlock then "block" else "flow"
          failAt (some ("while parsing a " ++ form ++ " node", start))
            ("expected the node content, but found " ++ t.kind.name.quoted) t.start

/-- Reads the items of a block sequence that starts at a place. -/
def blockItems : (fuel : Nat) → (start : Mark) → Build (List NodeId)
  | 0, _ => return []
  | fuel + 1, start => do
    let t ← peek
    match t.kind with
    | .blockEntry =>
      skip
      let item ← nodeUnless [.blockEntry, .blockEnd] t.stop (node fuel true false)
      return item :: (← blockItems fuel start)
    | .blockEnd => do skip; return []
    | _ => failCollection "block collection" start "expected <block end>, but found "

/-- Reads the items of a sequence that is not indented. -/
def indentlessItems : (fuel : Nat) → Build (List NodeId)
  | 0 => return []
  | fuel + 1 => do
    let t ← peek
    match t.kind with
    | .blockEntry =>
      skip
      let item ← nodeUnless [.blockEntry, .key, .value, .blockEnd] t.stop (node fuel true false)
      return item :: (← indentlessItems fuel)
    | _ => return []

/-- Reads the entries of a block mapping that starts at a place. -/
def blockEntries : (fuel : Nat) → (start : Mark) → Build (List (NodeId × NodeId))
  | 0, _ => return []
  | fuel + 1, start => do
    let t ← peek
    match t.kind with
    | .key =>
      skip
      let ends : List TokenKind := [.key, .value, .blockEnd]
      let key ← nodeUnless ends t.stop (node fuel true true)
      let value ← valueUnless ends (node fuel true true)
      return (key, value) :: (← blockEntries fuel start)
    | .blockEnd => do skip; return []
    | _ => failCollection "block mapping" start "expected <block end>, but found "

/-- Reads the items of a sequence between brackets that starts at a place. -/
def flowItems : (fuel : Nat) → (start : Mark) → (first : Bool) → Build (List NodeId)
  | 0, _, _ => return []
  | fuel + 1, start, first => do
    if ← nextIn [.flowSequenceEnd] then
      skip
      return []
    if !first then
      if ← nextIn [.flowEntry] then skip
      else failCollection "flow sequence" start "expected ',' or ']', but got "
    let t ← peek
    match t.kind with
    | .flowSequenceEnd => do skip; return []
    | .key =>
      let item ← flowPair fuel
      return item :: (← flowItems fuel start false)
    | _ =>
      let item ← node fuel false false
      return item :: (← flowItems fuel start false)

/-- Reads a mapping of one entry inside a sequence, which has no brackets of its own. -/
def flowPair : (fuel : Nat) → Build NodeId
  | 0 => do addMissing (← peek).start
  | fuel + 1 => do
    let t ← peek
    let id ← add none ⟨.mapping, t.start, .mapping []⟩
    skip
    let key ← nodeUnless [.value, .flowEntry, .flowSequenceEnd] t.stop (node fuel false false)
    let value ← valueUnless [.flowEntry, .flowSequenceEnd] (node fuel false false)
    fill id (.mapping [(key, value)])

/-- Reads the entries of a mapping between brackets that starts at a place. -/
def flowEntries : (fuel : Nat) → (start : Mark) → (first : Bool) → Build (List (NodeId × NodeId))
  | 0, _, _ => return []
  | fuel + 1, start, first => do
    if ← nextIn [.flowMappingEnd] then
      skip
      return []
    if !first then
      if ← nextIn [.flowEntry] then skip
      else failCollection "flow mapping" start "expected ',' or '\x7d', but got "
    let t ← peek
    match t.kind with
    | .flowMappingEnd => do skip; return []
    | .key =>
      skip
      let key ← nodeUnless [.value, .flowEntry, .flowMappingEnd] t.stop (node fuel false false)
      let value ← valueUnless [.flowEntry, .flowMappingEnd] (node fuel false false)
      return (key, value) :: (← flowEntries fuel start false)
    | _ =>
      let key ← node fuel false false
      let value ← addMissing (← peek).start
      return (key, value) :: (← flowEntries fuel start false)

end

/-! ## Documents -/

/-- The handles that need no directive. -/
def defaultHandles : List (Text × Text) :=
  [(Text.ofChar '!', Text.ofChar '!'), ("!!", Tag.standard)]

/-- Reads the directives before a document; `version` says whether there was one for the version. -/
def directives : (fuel : Nat) → (version : Bool) → Build Unit
  | 0, _ => return
  | fuel + 1, version => do
    let t ← peek
    match t.kind with
    | .directive (.version major _) =>
      skip
      if version then failAt none "found duplicate YAML directive" t.start
      if major ≠ 1 then
        failAt none "found incompatible YAML document (version 1.* is required)" t.start
      directives fuel true
    | .directive (.tag handle start) =>
      skip
      let b ← get
      if (Keyed.get? handle b.handles).isSome then
        failAt none ("duplicate tag handle " ++ handle.quoted) t.start
      set { b with handles := Keyed.set handle start b.handles }
      directives fuel version
    | .directive (.other _) =>
      skip
      directives fuel version
    | _ => return

/-- Reads the directives before a document and its start, and gives the place of the first. -/
def documentStart (fuel : Nat) : Build Mark := do
  let first ← peek
  modify fun b => { b with handles := [] }
  directives fuel false
  modify fun b => { b with
    handles := b.handles ++ defaultHandles.filter fun h => (Keyed.get? h.1 b.handles).isNone }
  let t ← peek
  if t.kind = .documentStart then
    skip
    return first.start
  else failAt none ("expected '<document start>', but found " ++ t.kind.name.quoted) t.start

/-- Skips the tokens that end a document. -/
def skipEnds : (fuel : Nat) → Build Unit
  | 0 => return
  | fuel + 1 => do
    if ← nextIn [.documentEnd] then
      skip
      skipEnds fuel

/-- Whether a token starts a document, or the next one, or ends all. -/
def isBoundary : TokenKind → Bool
  | .directive _ | .documentStart | .documentEnd | .streamEnd => true
  | _ => false

/-- Reads the root of the first document, if there is one. -/
def root (fuel : Nat) : Build (Option NodeId) := do
  let t ← peek
  match t.kind with
  | .streamEnd => return none
  | .directive _ | .documentStart =>
    let _ ← documentStart fuel
    let t ← peek
    if isBoundary t.kind then some <$> addMissing t.start else some <$> node fuel true false
  | _ => some <$> node fuel true false

/-- Reads the only document of a text, if there is one. -/
def single (fuel : Nat) : Build (Option NodeId) := do
  skip
  let id ← root fuel
  skipEnds fuel
  if ← nextIn [.streamEnd] then return id
  let mark ← documentStart fuel
  let first := ((← get).nodes[id.getD 0]!).mark
  failName (some ("expected a single document in the stream", first))
    "but found another document" mark

end Build

/-- Reads the nodes of a text that has at most one document and may have a barrier. -/
def Document.read (t : Text) (barrier : Option Barrier) : Except LoadError Document :=
  let (ts, stop) := tokens t barrier
  match (Build.single (4 * ts.length + 8)).run ⟨ts, stop, Build.defaultHandles, #[], []⟩ with
  | .error e => .error e
  | .ok (root, b) => .ok ⟨b.nodes, root⟩

end WorkflowLint.Yaml
