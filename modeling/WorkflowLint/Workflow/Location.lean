import WorkflowLint.Json.Printer
import WorkflowLint.Text.Blank
import WorkflowLint.Yaml.Shown

/-!
# Where a node stands in its file

A node is located by the first place of the text where its `id` member is written, or else its
`name` member.  The name of the member and the colon may have blanks between them.

The places where an `id` or a `name` is written do not depend on the node, so `Places.of` collects
them once for a text, and a node is then looked up among them.
-/

namespace WorkflowLint.Workflow

/-- A place where a member is written: the line on which it starts, and the text from its value
on. -/
structure Place where
  line : Nat
  ahead : Text

/-- The text from the value on, if a member whose name is written in a given way starts a text. -/
def valueAhead? (writtenName t : Text) : Option Text :=
  match Text.afterStart? writtenName t with
  | none => none
  | some t =>
    match t.dropWhile CodePoint.isBlank with
    | .char ':' :: t => some (t.dropWhile CodePoint.isBlank)
    | _ => none

/-- The places where a member is written in a text that starts on a line. -/
def placesFrom (writtenName : Text) : (line : Nat) → Text → List Place
  | _, [] => []
  | line, c :: t =>
    let next := if c = .char '\n' then line + 1 else line
    match valueAhead? writtenName (c :: t) with
    | some ahead => ⟨line, ahead⟩ :: placesFrom writtenName next t
    | none => placesFrom writtenName next t

/-- The places of a text that nodes are looked up among. -/
structure Places where
  ids : List Place
  names : List Place

/-- The places of a text. -/
def Places.of (t : Text) : Places :=
  ⟨placesFrom (Json.writeString "id") 1 t, placesFrom (Json.writeString "name") 1 t⟩

/-- The line of the first place at which a text is the value. -/
def lineOfValue? (places : List Place) (value : Text) : Option Nat :=
  let written := Json.writeString value
  (places.find? fun p => written.isPrefixOf p.ahead).map Place.line

/-- The line of a node's `id` member, or else of its `name` member, for members whose value
satisfies `usable`. -/
def Places.line? (places : Places) (node : Json.Members) (usable : Text → Bool) : Option Nat :=
  (((node.text? "id").filter usable).bind (lineOfValue? places.ids)).or
    (((node.text? "name").filter usable).bind (lineOfValue? places.names))

/-- The line of a node, found by a text that is not empty. -/
def Places.nodeLine? (places : Places) (node : Json.Members) : Option Nat :=
  places.line? node fun value => !value.isEmpty

/-- What a node is looked up by: its `id` unless that counts as absent, else its `name`. -/
def nodeKey (node : Json.Members) : Text :=
  (((Json.present? (node.get? "id")).or (Json.present? (node.get? "name"))).map Json.shown).getD []

/-- The lines of the nodes that are found in the text. -/
def locate (text : Text) (nodes : List Json.Members) : List (Text × Nat) :=
  let places := Places.of text
  Keyed.ofPairs <| nodes.filterMap fun node =>
    if (nodeKey node).isEmpty then none
    else (places.line? node fun _ => true).map fun line => (nodeKey node, line)

end WorkflowLint.Workflow
