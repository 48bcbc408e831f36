import WorkflowLint.Fault
import WorkflowLint.Json.Equality
import WorkflowLint.Json.Printer

/-!
# Fixes

A fix turns the text of a file into the text that the file should have.  It has no access to the
file itself.  A fix may stop with a fault, or fail to give a text at all.

Most fixes edit the document that the text is: `Fix.ofEdit` reads it, edits its members, and writes
it again unless the edit left the document equal to what it was.
-/

namespace WorkflowLint

/-- What became of running a fix. -/
inductive Fix.Outcome where
  | text (t : Text)
  | noText
  | fault (f : Fault)

/-- A way to mend a file. -/
structure Fix where
  description : Text
  run : Text → Fix.Outcome

namespace Fix

/-- The text that a fix gives, if it gives one. -/
def Outcome.text? : Outcome → Option Text
  | .text t => some t
  | _ => none

/-- The text after a fix; a fix that gives none leaves the text alone. -/
def apply (f : Fix) (t : Text) : Text := ((f.run t).text?).getD t

/-- The text after some fixes, from left to right. -/
def applyAll (fs : List Fix) (t : Text) : Text := fs.foldl (fun t f => f.apply t) t

/-- A fix that changes nothing. -/
def identity (description : Text) : Fix := ⟨description, .text⟩

/-- Replaces all occurrences of a text. -/
def replacing (description old new : Text) : Fix :=
  ⟨description, fun t => .text (t.replaceAll old new)⟩

/-- Appends a text. -/
def appending (description tail : Text) : Fix := ⟨description, fun t => .text (t ++ tail)⟩

/-- The text after an edit of the document that it is.  A text that is not an object, and a
document that the edit leaves equal, stay as they are. -/
def editText (edit : Json.Members → Json.Members) (t : Text) : Outcome :=
  match Json.readObject t with
  | .error e => .fault (.ofReadError t e)
  | .ok none => .text t
  | .ok (some members) =>
    let edited := edit members
    if Json.same (.object edited) (.object members) then .text t
    else .text (Json.print (.object edited))

/-- Edits the document. -/
def ofEdit (description : Text) (edit : Json.Members → Json.Members) : Fix :=
  ⟨description, editText edit⟩

end Fix
end WorkflowLint
