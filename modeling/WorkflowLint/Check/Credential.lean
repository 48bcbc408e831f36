import WorkflowLint.Check.Document
import WorkflowLint.Placeholder.Token
import WorkflowLint.Text.DecimalDigit

/-!
# Credentials

The credentials of a node are referred to by placeholders, since their ids differ between
installations (CRED-PLACEHOLDER).  An id is taken for one that was written down if it has the form
of a UUID, or is a number, or is a long run of letters and digits.
-/

namespace WorkflowLint.Check.Credential

open Placeholder

/-- The description of the check. -/
def info : CheckInfo where
  id := "CRED-PLACEHOLDER"
  name := "credential_placeholders"
  severity := .should
  description := "Credential references should use FLEXCRED, USERCRED or ORGCRED placeholders"
  details := "Hardcoded credential ids differ between environments"
  category := some "credentials"

/-- The stems of the placeholders for credentials. -/
def stems : List Text := ["FLEXCRED", "USERCRED", "ORGCRED"]

/-- A placeholder for a credential at the start of a text. -/
def read? (t : Text) : Option Token :=
  stems.findSome? fun stem =>
    Token.read? stem ((Keyed.get? stem endings).getD []) isNameUnit t

/-- Whether a placeholder for a credential stands somewhere in a text. -/
def hasPlaceholder : Text → Bool
  | [] => false
  | c :: t => (read? (c :: t)).isSome || hasPlaceholder t

/-- Whether a text is one of five groups of hexadecimal digits, of the given lengths, between
hyphens. -/
def isUuid (t : Text) : Bool :=
  let groups := t.parts (.char '-')
  groups.map List.length == [8, 4, 4, 4, 12]
    && groups.all fun g => g.all fun c => c.hexValue?.isSome

/-- Whether an id was written down; a line feed at its end does not count. -/
def looksHardcoded (id : Text) : Bool :=
  let body := if id.getLast? = some (.char '\n') then id.dropLast else id
  !hasPlaceholder id &&
    (isUuid body || (!body.isEmpty && body.all CodePoint.isDecimal)
      || (20 ≤ body.length && body.all CodePoint.isAlphanum))

/-- The credentials of a node whose ids were written down, as their types and ids. -/
def hardcoded (node : Json.Members) : List (Text × Text) :=
  match node.get? "credentials" with
  | some (.object credentials) =>
    credentials.filterMap fun credential =>
      match credential.2 with
      | .object members =>
        ((Json.Members.text? members "id").filter looksHardcoded).map fun id => (credential.1, id)
      | _ => none
  | _ => []

/-- The name of a node as a message shows it, or its id if the name counts as absent. -/
def label (node : Json.Members) : Text :=
  ((Json.present? (node.get? "name")).map Json.shown).getD (memberShown node "id")

/-- The finding on a credential of a node. -/
def finding (places : Workflow.Places) (path : Text) (node : Json.Members)
    (credential : Text × Text) : Finding where
  rule := info.id
  severity := .should
  path := path
  message :=
    "Node \"" ++ label node ++ "\" has hardcoded credential ID for \"" ++ credential.1 ++ "\""
  detail := some <|
    "Replace the hardcoded credential ID \"" ++ credential.2 ++ "\" with a placeholder like "
    ++ (⟨"FLEXCRED", credential.1.upper, "DERCXELF"⟩ : Token).text ++ "."
  line := (places.nodeLine? node).map Int.ofNat
  nodeId := node.text? "id"

/-- Reports every credential whose id was written down. -/
def run (t path : Text) : Except Fault (List Finding) :=
  onDocument t fun document =>
    let places := Workflow.Places.of t
    (nodeObjects document).flatMap fun node => (hardcoded node).map (finding places path node)

end WorkflowLint.Check.Credential
