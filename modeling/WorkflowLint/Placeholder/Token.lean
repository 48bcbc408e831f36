import WorkflowLint.Text.Basic

/-!
# Placeholders

A placeholder stands for a value that is filled in when a workflow is deployed.  It is written
between double braces as a stem, a name and an ending, joined by underscores.  The ending of every
stem is the stem spelled backwards, or nearly so.

`Token.read?` recognises a placeholder of one stem with its own ending, `Token.readAny?` one with
whatever ending.  As names may have underscores, the last one decides where the ending starts.
-/

namespace WorkflowLint.Placeholder

/-- What opens a placeholder. -/
def opening : Text := "\x7b\x7b"

/-- What closes a placeholder. -/
def closing : Text := "\x7d\x7d"

/-- The parts of a placeholder. -/
structure Token where
  stem : Text
  name : Text
  ending : Text
deriving DecidableEq

/-- The code points of the names of most placeholders: capital letters, digits and underscores. -/
def isNameUnit (c : CodePoint) : Bool := c.isUpper || c.isDigit || c == .char '_'

/-- The code points of the ids of sub-workflows: letters, digits, underscores and hyphens. -/
def isIdUnit (c : CodePoint) : Bool := c.isAlphanum || c == .char '_' || c == .char '-'

namespace Token

/-- A placeholder as it is written. -/
def text (p : Token) : Text :=
  opening ++ p.stem ++ "_" ++ p.name ++ "_" ++ p.ending ++ closing

/-- What stands between the stem and the closing braces at the start of a text. -/
def body? (stem : Text) (unit : CodePoint → Bool) (t : Text) : Option Text :=
  match Text.afterStart? (opening ++ stem ++ "_") t with
  | none => none
  | some rest =>
    let body := rest.takeWhile unit
    if closing.isPrefixOf (rest.drop body.length) then some body else none

/-- The placeholder of a stem and an ending at the start of a text. -/
def read? (stem ending : Text) (unit : CodePoint → Bool) (t : Text) : Option Token :=
  match body? stem unit t with
  | none => none
  | some body =>
    let tail : Text := "_" ++ ending
    if tail.isSuffixOf body ∧ tail.length < body.length then
      some ⟨stem, body.take (body.length - tail.length), ending⟩
    else none

/-- The placeholder of a stem, with whatever ending in capital letters, at the start of a text. -/
def readAny? (stem t : Text) : Option Token :=
  match body? stem isNameUnit t with
  | none => none
  | some body =>
    let ending := Text.afterLast (.char '_') body
    if ending.isEmpty = false ∧ ending.all CodePoint.isUpper ∧ ending.length + 1 < body.length then
      some ⟨stem, body.take (body.length - ending.length - 1), ending⟩
    else none

/-- A placeholder with the length it takes. -/
def sized (p : Token) : Token × Nat := (p, p.text.length)

end Token

/-- The stems, each with the ending that belongs to it. -/
def endings : List (Text × Text) := [
  ("ORGSECRET", "TERCESORG"), ("PROCDATA", "ATADCORP"), ("USERDATA", "ATADRESU"),
  ("MEMSECRT", "TRCESMEM"), ("FLEXCRED", "DERCXELF"), ("USERCRED", "DERCRESU"),
  ("ORGCRED", "DERCGRO"), ("SUBWKFL", "LFKWBUS"), ("INSTPARM", "MRAPTSNI")]

/-- The references to sub-workflows in a text, with their offsets. -/
def references (t : Text) : List (Nat × Token) :=
  t.occurrences fun t => (Token.read? "SUBWKFL" "LFKWBUS" isIdUnit t).map Token.sized

end WorkflowLint.Placeholder
