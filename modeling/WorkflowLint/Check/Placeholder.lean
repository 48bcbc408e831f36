import WorkflowLint.Check.Info
import WorkflowLint.Placeholder.Token

/-!
# Placeholders as they are written

Two checks of the text of a workflow file.  A placeholder for an installation parameter must not
stand between quotes, because it would become a text instead of a value (INSTPARM-QUOTE), and the
ending of a placeholder must be the one of its stem (PLACEHOLDER-SYNTAX).  Both are mended by
replacing all occurrences of what is wrong, so that a second run of a fix finds nothing.
-/

namespace WorkflowLint.Check

open Placeholder

namespace InstparmQuote

/-- The description of the check. -/
def info : CheckInfo where
  id := "INSTPARM-QUOTE"
  name := "instparm_quoting"
  severity := .must
  description := "INSTPARM placeholders must not be wrapped in quotes"
  details := "Quoted placeholders become string literals instead of the substituted value"
  fixable := true
  category := some "placeholder"

/-- A placeholder between two equal quotes. -/
structure Quoted where
  quote : Text
  token : Token

/-- A placeholder with its quotes as it is written. -/
def Quoted.text (q : Quoted) : Text := q.quote ++ q.token.text ++ q.quote

/-- A placeholder between two of the given quotes at the start of a text. -/
def readBetween? (quote t : Text) : Option Quoted :=
  match Text.afterStart? quote t with
  | none => none
  | some rest =>
    match Token.read? "INSTPARM" "MRAPTSNI" isNameUnit rest with
    | none => none
    | some token =>
      if quote.isPrefixOf (rest.drop token.text.length) then some ⟨quote, token⟩ else none

/-- A quoted placeholder at the start of a text: between double quotes, which are escaped inside a
JSON string, or between single ones. -/
def read? (t : Text) : Option (Quoted × Nat) :=
  ((readBetween? "\\\"" t).or (readBetween? "'" t)).map fun q => (q, q.text.length)

/-- The quoted placeholders of a text, with their offsets. -/
def scan (t : Text) : List (Nat × Quoted) := t.occurrences read?

/-- The fix of a quoted placeholder. -/
def fix (q : Quoted) : Fix :=
  .replacing ("Remove quotes around " ++ q.token.text) q.text q.token.text

/-- The finding on a quoted placeholder. -/
def finding (t path : Text) (found : Nat × Quoted) : Finding :=
  let q := found.2
  { rule := info.id
    severity := .must
    path := path
    message := "INSTPARM placeholder should not be quoted: " ++ q.text
    detail := some <|
      "Remove the " ++ q.quote.filter (· != .char '\\') ++ " quotes around " ++ q.token.text
      ++ ". Quoted placeholders become string literals instead of being replaced with values."
    line := some (Text.lineAt t found.1)
    fix := some (fix q) }

/-- Reports every quoted placeholder. -/
def run (t path : Text) : List Finding := (scan t).map (finding t path)

end InstparmQuote

namespace PlaceholderSyntax

/-- The description of the check. -/
def info : CheckInfo where
  id := "PLACEHOLDER-SYNTAX"
  name := "placeholder_syntax"
  severity := .must
  description := "Placeholders must use the suffix that matches their prefix"
  details := "Each placeholder prefix has one required suffix (the prefix reversed)"
  fixable := true
  category := some "placeholder"

/-- A placeholder of any stem at the start of a text. -/
def read? (t : Text) : Option (Token × Nat) :=
  (endings.findSome? fun e => Token.readAny? e.1 t).map Token.sized

/-- The ending that belongs to a placeholder. -/
def expected (p : Token) : Text := (Keyed.get? p.stem endings).getD p.ending

/-- A placeholder with the ending that belongs to it. -/
def corrected (p : Token) : Token := { p with ending := expected p }

/-- The placeholders of a text with a wrong ending, with their offsets. -/
def scan (t : Text) : List (Nat × Token) :=
  (t.occurrences read?).filter fun found => found.2.ending != expected found.2

/-- The fix of a placeholder with a wrong ending. -/
def fix (p : Token) : Fix :=
  .replacing ("Fix suffix: " ++ p.text ++ " -> " ++ (corrected p).text) p.text (corrected p).text

/-- The finding on a placeholder with a wrong ending. -/
def finding (t path : Text) (found : Nat × Token) : Finding :=
  let p := found.2
  { rule := info.id
    severity := .must
    path := path
    message := "Invalid placeholder suffix: " ++ p.text ++ " should end with _" ++ expected p
    detail := some ("Replace " ++ p.text ++ " with " ++ (corrected p).text)
    line := some (Text.lineAt t found.1)
    fix := some (fix p) }

/-- Reports every placeholder with a wrong ending. -/
def run (t path : Text) : List Finding := (scan t).map (finding t path)

end PlaceholderSyntax

end WorkflowLint.Check
