import WorkflowLint.Fault
import WorkflowLint.Text.Utf8
import WorkflowLint.Yaml.Graph
import WorkflowLint.Yaml.Shown

/-!
# Checking values against a schema

A schema says which entries a mapping has and of what form their values are.  Checking a value gives
what it stands for, or all of its errors: those of the entries come in the order of the schema, and
after them those of entries that the schema does not know.

A check can also stop with a fault, of which there is only the first.
-/

namespace WorkflowLint.Schema

open Yaml (Atom Graph)

/-- An error of the value to which some keys and positions lead. -/
structure SchemaError where
  location : List Text
  problem : Text
deriving DecidableEq

/-- The wording of an error. -/
def SchemaError.message (e : SchemaError) : Text :=
  let location := Text.join "." e.location
  (if location.isEmpty then ↑"(root)" else location) ++ ": " ++ e.problem

/-- Why a value does not fit a schema: all its errors, or a fault that ended the check. -/
inductive Misfit where
  | errors (es : List SchemaError)
  | fault (f : Fault)

/-- What a value stands for, or why it stands for nothing. -/
abbrev Checked (α : Type) := Except Misfit α

variable {α β : Type}

/-! ## Errors -/

/-- The error of a value itself. -/
def fail (problem : Text) : Checked α := .error (.errors [⟨[], problem⟩])

/-- The reasons of a part, under a key or at a position. -/
def Misfit.within (name : Text) : Misfit → Misfit
  | .errors es => .errors (es.map fun e => { e with location := name :: e.location })
  | .fault f => .fault f

/-- What is checked as a part, under a key or at a position. -/
def within (name : Text) (c : Checked α) : Checked α := c.mapError (Misfit.within name)

/-- What consists of one more part; the errors of all parts are kept. -/
def withPart (part : Checked α) (whole : Checked (α → β)) : Checked β :=
  match whole, part with
  | .error (.fault f), _ => .error (.fault f)
  | _, .error (.fault f) => .error (.fault f)
  | .ok f, .ok a => .ok (f a)
  | .ok _, .error (.errors es) => .error (.errors es)
  | .error (.errors es), .ok _ => .error (.errors es)
  | .error (.errors es), .error (.errors fs) => .error (.errors (es ++ fs))

/-- What several parts stand for, with the errors of all of them. -/
def all (parts : List (Checked α)) : Checked (List α) :=
  parts.foldr (fun part rest => withPart rest (part.map List.cons)) (.ok [])

/-! ## Values -/

/-- The error of a text that cannot be encoded, or of bytes that encode no text. -/
def failUnicode : Checked α :=
  fail "Input should be a valid string, unable to parse raw data as a unicode string"

/-- Whether a text can be encoded. -/
def isEncodable (t : Text) : Bool := (Utf8.encode t).toOption.isSome

/-- A text; bytes count as the text that they encode. -/
def text (g : Graph) : Checked Text :=
  match g.atom? with
  | some (.string t) => .ok t
  | some (.bytes b) =>
    match Utf8.decode b with
    | .ok t => .ok t
    | .error _ => failUnicode
  | _ => fail "Input should be a valid string"

/-- A text that is not empty. -/
def fullText (g : Graph) : Checked Text := do
  let t ← text g
  if !isEncodable t then failUnicode
  else if t.isEmpty then fail "String should have at least 1 character"
  else .ok t

/-- The items of a value that is a list or a set. -/
def items (g : Graph) : Checked (List Graph) :=
  match g.object with
  | .list items => .ok (items.map g.rootedAt)
  | .set members => .ok (members.map g.rootedAt)
  | _ => fail "Input should be a valid list"

/-- A list whose items are of some form. -/
def listOf (item : Graph → Checked α) (g : Graph) : Checked (List α) := do
  all ((← items g).zipIdx.map fun p => within (Text.ofNat p.2) (item p.1))

/-- A value that can be null. -/
def nullable (check : Graph → Checked α) (g : Graph) : Checked (Option α) :=
  match g.atom? with
  | some .null => .ok none
  | _ => (check g).map some

/-- The entries of a mapping, `what` being what the mapping stands for. -/
def entries (what : Text) (g : Graph) : Checked Yaml.Entries :=
  match g.entries? with
  | some es => .ok es
  | none => fail ("Input should be a valid dictionary or instance of " ++ what)

/-! ## Entries -/

/-- The value of an entry that has to be there. -/
def required (es : Yaml.Entries) (name : Text) (check : Graph → Checked α) : Checked α :=
  within name <|
    match es.get? name with
    | none => fail "Field required"
    | some g => check g

/-- The value of an entry that can be missing. -/
def optional (es : Yaml.Entries) (name : Text) (otherwise : α) (check : Graph → Checked α) :
    Checked α :=
  match es.get? name with
  | none => .ok otherwise
  | some g => within name (check g)

/-- A key as part of a location. -/
def keyLocation (key : Atom) : Text :=
  if key.isTooLong then "<unprintable int object>"
  else
    match key with
    | .bool b => if b then "1" else "0"
    | key => key.quoted

/-- The entries that a schema does not know.  Their keys have to be texts. -/
def extra (known : List Text) (es : Yaml.Entries) : Checked (List (Text × Graph)) :=
  all <| es.filterMap fun e =>
    match e.1 with
    | .string name => if known.contains name then none else some (.ok (name, e.2))
    | key => some (within (keyLocation key) (fail "Keys should be strings"))

/-- Adds the entries that a schema does not know to what the others stand for.  If a key cannot be
encoded, then that is the only error. -/
def withExtra (known : List Text) (es : Yaml.Entries)
    (whole : Checked (List (Text × Graph) → β)) : Checked β :=
  match whole with
  | .error (.fault f) => .error (.fault f)
  | _ =>
    if es.all fun e => e.1.text?.all isEncodable then whole |> withPart (extra known es)
    else failUnicode

end WorkflowLint.Schema
