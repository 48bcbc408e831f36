import WorkflowLint.Fault
import WorkflowLint.Yaml.Graph
import WorkflowLint.Yaml.Writer

/-!
# Writing documents

`Yaml.print?` writes a graph as a document in block form, with the entries of mappings in their
order.  An object that occurs at several places gets an anchor where it occurs first, and is
referred to by an alias afterwards.  Anchors are numbered in the order in which the second
occurrences come.

An object is entered only where it occurs first, so a collection that is part of itself is written
like any other.
-/

namespace WorkflowLint.Yaml

/-- Whether the occurrences of an object are told from those of its equals. -/
def Object.isShared : Object → Bool
  | .atom (.date _) | .atom (.timestamp _) => true
  | .list _ | .pair _ _ | .set _ | .mapping _ => true
  | .atom _ => false

/-- Which objects have occurred, and which of those that can be shared have occurred again, in the
order of their second occurrences. -/
structure Occurrences where
  seen : Array Bool
  again : List ObjectId

namespace Occurrences

/-- Counts an object in, with its parts unless it has occurred before. -/
def add (g : Graph) : (fuel : Nat) → Occurrences → ObjectId → Occurrences
  | 0, o, _ => o
  | fuel + 1, o, id =>
    let object := g.objectAt id
    if o.seen.getD id false && object.isShared then
      if o.again.contains id then o else { o with again := o.again ++ [id] }
    else
      object.parts.foldl (add g fuel) { o with seen := o.seen.setIfInBounds id true }

/-- The occurrences of the objects of a graph. -/
def ofGraph (g : Graph) : Occurrences :=
  add g (g.objects.size + 1) ⟨Array.replicate g.objects.size false, []⟩ g.root

end Occurrences

/-- A text that is being written, and the objects whose anchors are in it. -/
structure Printing where
  writer : Writer
  anchored : List ObjectId

namespace Printing

/-- Goes on writing. -/
def write (f : Writer → Writer) (p : Printing) : Printing := { p with writer := f p.writer }

/-- The name of an anchor, by its position among the shared objects. -/
def anchorName (position : Nat) : Text := "id" ++ Text.ofNatPadded 10 3 (position + 1)

/-- The name of the anchor of an object, if it is one of those that are shared. -/
def anchorOf? (shared : List ObjectId) (id : ObjectId) : Option Text :=
  (shared.findIdx? (· == id)).map anchorName

/-- Writes the alias of an object that has been anchored; otherwise writes the anchor, if it is to
have one, and the object itself. -/
def object (shared : List ObjectId) (id : ObjectId) (content : Printing → Printing)
    (p : Printing) : Printing :=
  match anchorOf? shared id with
  | none => content p
  | some name =>
    if p.anchored.contains id then p.write (·.sign ("*" ++ name))
    else content ⟨p.writer.sign ("&" ++ name), p.anchored ++ [id]⟩

/-- The column of a block inside a collection at a column, or at the root. -/
def deeper (column : Option Nat) : Nat :=
  match column with
  | none => 0
  | some n => n + 2

/-- The column of the items of a sequence: directly under the key if that starts the line. -/
def itemColumn (column : Option Nat) (inMapping : Bool) (w : Writer) : Nat :=
  if inMapping ∧ !w.indenting then column.getD 0 else deeper column

/-- Writes a scalar. -/
def scalar (p : Printing) (column : Option Nat) (isKey : Bool) (s : Scalar) : Printing :=
  p.write (·.scalar s isKey (column.getD 0 + 2))

/-- Whether a key stands before the colon on its line. -/
def isInline (g : Graph) (shared : List ObjectId) (key : ObjectId) (p : Printing) : Bool :=
  let anchor := anchorOf? shared key
  (anchor.isSome && p.anchored.contains key)
    || (Scalar.ofAtom (g.atomAt key)).isShortKey (anchor.getD []).length

/-- Writes the sign of an item. -/
def itemSign (column : Nat) (p : Printing) : Printing :=
  p.write fun w => (w.indentTo column).entrySign "-"

/-- Writes a key and the colon after it. -/
def key (g : Graph) (shared : List ObjectId) (column : Nat) (id : ObjectId) (p : Printing) :
    Printing :=
  let p := p.write (·.indentTo column)
  let content (isKey : Bool) (p : Printing) : Printing :=
    object shared id (fun p => p.scalar (some column) isKey (Scalar.ofAtom (g.atomAt id))) p
  if isInline g shared id p then (content true p).write (·.closing ":")
  else
    (content false (p.write (·.entrySign "?"))).write fun w => (w.indentTo column).entrySign ":"

/-- Writes an empty collection, or the parts of one that is not empty. -/
def collection {α : Type} (brackets : Text) (parts : List α) (part : Printing → α → Printing)
    (p : Printing) : Printing :=
  if parts.isEmpty then p.write (·.sign brackets) else parts.foldl part p

/-- Writes an object that belongs to a collection at a column.  `inMapping` says whether it is a
value of a mapping.  No object is entered twice, so `fuel` need not exceed the number of objects. -/
def value (g : Graph) (shared : List ObjectId) :
    (fuel : Nat) → (column : Option Nat) → (inMapping : Bool) → ObjectId → Printing → Printing
  | 0, _, _, _, p => p
  | fuel + 1, column, inMapping, id, p =>
    let item (column : Nat) (p : Printing) (id : ObjectId) : Printing :=
      value g shared fuel (some column) false id (p.itemSign column)
    p |> object shared id fun p =>
      match g.objectAt id with
      | .atom a => p.scalar column false (Scalar.ofAtom a)
      | .list items => p |> collection "[]" items (item (itemColumn column inMapping p.writer))
      | .pair first second =>
        [first, second].foldl (item (itemColumn column inMapping p.writer)) p
      | .set members =>
        let column := deeper column
        p.write (·.sign (Scalar.shortTag .set)) |> collection "\x7b\x7d" members fun p id =>
          (key g shared column id p).scalar (some column) false (Scalar.ofAtom .null)
      | .mapping entries =>
        let column := deeper column
        p |> collection "\x7b\x7d" entries fun p e =>
          value g shared fuel (some column) true e.2 (key g shared column e.1 p)

end Printing

/-- Writes a graph as a document.  None of its numbers may have too many digits. -/
def print? (g : Graph) : Except Fault Text :=
  let o := Occurrences.ofGraph g
  if o.seen.toList.zipIdx.any fun s => s.1 && (g.atomAt s.2).isTooLong then .error .tooLong
  else
    let p := Printing.value g o.again (g.objects.size + 1) none false g.root ⟨.empty, []⟩
    .ok (p.writer.indentTo 0).text

end WorkflowLint.Yaml
