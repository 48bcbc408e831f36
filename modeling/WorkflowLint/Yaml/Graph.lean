import WorkflowLint.Yaml.Value

/-!
# The graphs of documents

A document is a graph of objects with one of them as its root.  An anchor can make an object occur
at several places of a document, and a collection can even occur inside itself; wherever it occurs
it is one object, known by its number.

A part of a document is the same graph with another root (`Graph.rootedAt`).  `Graph.value` spells
a graph out as a tree.
-/

namespace WorkflowLint.Yaml

/-- The number of an object. -/
abbrev ObjectId := Nat

/-- An object: an atom, or a collection of other objects.  Keys and members are atoms. -/
inductive Object where
  | atom (a : Atom)
  | list (items : List ObjectId)
  | pair (first second : ObjectId)
  | set (members : List ObjectId)
  | mapping (entries : List (ObjectId × ObjectId))

instance : Inhabited Object := ⟨.atom .null⟩

namespace Object

/-- The atom that an object is. -/
def atom? : Object → Option Atom
  | .atom a => some a
  | _ => none

/-- The objects that an object consists of, in order. -/
def parts : Object → List ObjectId
  | .atom _ => []
  | .list items => items
  | .pair first second => [first, second]
  | .set members => members
  | .mapping entries => entries.flatMap fun e => [e.1, e.2]

/-- Whether an object is a mapping. -/
def isMapping : Object → Bool
  | .mapping _ => true
  | _ => false

end Object

/-- A graph of objects, and the one that it is the graph of. -/
structure Graph where
  objects : Array Object
  root : ObjectId

/-- The entries of a mapping. -/
abbrev Entries := List (Atom × Graph)

/-- The value of a key that is a text. -/
def Entries.get? (es : Entries) (key : Text) : Option Graph :=
  (es.find? fun e => e.1.isText key).map (·.2)

namespace Graph

/-! ## Parts -/

/-- The object with a number. -/
def objectAt (g : Graph) (id : ObjectId) : Object := g.objects.getD id default

/-- The object at the root. -/
def object (g : Graph) : Object := g.objectAt g.root

/-- The atom with a number. -/
def atomAt (g : Graph) (id : ObjectId) : Atom := (g.objectAt id).atom?.getD .null

/-- The same graph with another root. -/
def rootedAt (g : Graph) (id : ObjectId) : Graph := { g with root := id }

/-- The atom at the root. -/
def atom? (g : Graph) : Option Atom := g.object.atom?

/-- Whether the root is the given text. -/
def isText (t : Text) (g : Graph) : Bool := g.atom?.any fun a => a.isText t

/-- The items of a list. -/
def items? (g : Graph) : Option (List Graph) :=
  match g.object with
  | .list items => some (items.map g.rootedAt)
  | _ => none

/-- The entries of a mapping. -/
def entries? (g : Graph) : Option Entries :=
  match g.object with
  | .mapping entries => some (entries.map fun e => (g.atomAt e.1, g.rootedAt e.2))
  | _ => none

/-- The value of a key of a mapping. -/
def get? (g : Graph) (key : Text) : Option Graph := g.entries?.bind fun es => es.get? key

/-- Whether a graph counts as absent: its root is an absent atom or an empty collection. -/
def isBlank (g : Graph) : Bool :=
  match g.object with
  | .atom a => a.isBlank
  | o => o.parts.isEmpty

/-! ## Trees -/

/-- The object with a number as a tree, `around` being the collections around it.  No collection is
entered that it is part of, so `fuel` need not exceed the number of objects. -/
def valueAt (g : Graph) : (fuel : Nat) → (around : List ObjectId) → ObjectId → Value
  | 0, _, _ => .null
  | fuel + 1, around, id =>
    let o := g.objectAt id
    if around.contains id then .cycle o.isMapping
    else
      let inner : ObjectId → Value := g.valueAt fuel (id :: around)
      match o with
      | .atom a => .atom a
      | .list items => .list (items.map inner)
      | .pair first second => .pair (inner first) (inner second)
      | .set members => .set (members.map g.atomAt)
      | .mapping entries => .mapping (entries.map fun e => (g.atomAt e.1, inner e.2))

/-- A graph as a tree. -/
def value (g : Graph) : Value := g.valueAt (g.objects.size + 1) [] g.root

/-! ## Adding objects -/

/-- Adds an object, which does not become the root, and gives its number. -/
def add (o : Object) (g : Graph) : Graph × ObjectId :=
  ({ g with objects := g.objects.push o }, g.objects.size)

/-- Adds an atom. -/
def addAtom (g : Graph) (a : Atom) : Graph × ObjectId := g.add (.atom a)

mutual

/-- Adds a JSON value. -/
def addJson (g : Graph) : Json → Graph × ObjectId
  | .null => g.addAtom .null
  | .bool b => g.addAtom (.bool b)
  | .integer n => g.addAtom (.integer n)
  | .real x => g.addAtom (.real x)
  | .string s => g.addAtom (.string s)
  | .array items =>
    let (g, ids) := g.addItems items
    g.add (.list ids)
  | .object members =>
    let (g, entries) := g.addMembers members
    g.add (.mapping entries)

/-- Adds the items of an array. -/
def addItems (g : Graph) : List Json → Graph × List ObjectId
  | [] => (g, [])
  | item :: items =>
    let (g, id) := g.addJson item
    let (g, ids) := g.addItems items
    (g, id :: ids)

/-- Adds the members of an object. -/
def addMembers (g : Graph) : List (Text × Json) → Graph × List (ObjectId × ObjectId)
  | [] => (g, [])
  | (name, value) :: members =>
    let (g, key) := g.addAtom (.string name)
    let (g, id) := g.addJson value
    let (g, entries) := g.addMembers members
    (g, (key, id) :: entries)

end

/-- A graph of nothing but null. -/
def null : Graph := ⟨#[.atom .null], 0⟩

/-- A JSON value as a graph. -/
def ofJson (v : Json) : Graph :=
  let (g, id) := addJson ⟨#[], 0⟩ v
  g.rootedAt id

/-! ## Changing objects -/

/-- The entries of a mapping in which a key has been given a value: in its place, or at the end if
there is none.  `key` is the number of the atom that is the key. -/
def setIn (g : Graph) (key value : ObjectId) :
    List (ObjectId × ObjectId) → List (ObjectId × ObjectId)
  | [] => [(key, value)]
  | e :: entries =>
    if (g.atomAt e.1).sameKey (g.atomAt key) then (e.1, value) :: entries
    else e :: g.setIn key value entries

/-- Gives a key of the mapping with a number a value, wherever the mapping occurs. -/
def setEntry (g : Graph) (id key value : ObjectId) : Graph :=
  match g.objectAt id with
  | .mapping entries =>
    { g with objects := g.objects.setIfInBounds id (.mapping (g.setIn key value entries)) }
  | _ => g

end Graph
end WorkflowLint.Yaml
