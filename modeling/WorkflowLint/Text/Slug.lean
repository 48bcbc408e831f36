import WorkflowLint.Text.Case

/-!
# Slugs

The slug of a name is made of the runs of letters and digits of its lower-case form, joined by
single hyphens.
-/

namespace WorkflowLint.Text

/-- A letter or digit of a slug. -/
def isSlugUnit (c : CodePoint) : Bool := c.isDigit || c.isLower

/-- The maximal runs of code points of a class, `run` being the one that ends before the text. -/
def runsAfter (p : CodePoint → Bool) (run : Text) : Text → List Text
  | [] => if run.isEmpty then [] else [run]
  | c :: t =>
    if p c then runsAfter p (run ++ [c]) t
    else if run.isEmpty then runsAfter p [] t
    else run :: runsAfter p [] t

/-- The maximal runs of code points of a class. -/
def runs (p : CodePoint → Bool) (t : Text) : List Text := runsAfter p [] t

/-- The slug of a name. -/
def slug (name : Text) : Text := join "-" (runs isSlugUnit name.lower)

end WorkflowLint.Text
