import WorkflowLint.Fault
import WorkflowLint.Yaml.Cursor

/-!
# What can be wrong with a YAML text

A text can have a code point that YAML does not allow, or a defect found at one of four stages:
in its tokens, in their order, in its anchors and aliases, or in the values of its nodes.  The
message of a defect names the place of what is wrong, and often the place of what it is part of,
each with the line of the text around it.
-/

namespace WorkflowLint.Yaml

/-- Where a text comes from: it is given as such, or it is a file, which is read in pieces. -/
inductive Source where
  | given
  | file (path : Text)

namespace Source

/-- The name of a source in messages. -/
def name : Source → Text
  | .given => "<unicode string>"
  | .file path => path

/-- Whether messages show the lines of a text; those of a file may be gone when they are needed. -/
def showsLines : Source → Bool
  | .given => true
  | .file _ => false

/-- Whether a text is read in pieces. -/
def inPieces : Source → Bool
  | .given => false
  | .file _ => true

end Source

/-- The stages at which a defect is found. -/
inductive Stage where
  | tokens
  | grammar
  | composition
  | construction
deriving DecidableEq

/-- A defect at a place, possibly as part of something that has a place of its own. -/
structure Defect where
  stage : Stage
  context : Option Text := none
  contextMark : Option Mark := none
  problem : Text
  mark : Mark
deriving DecidableEq

/-- Why a text has no value.  A fault is not a matter of YAML, and stops whoever reads the text. -/
inductive LoadError where
  | unacceptable (c : CodePoint) (offset : Nat)
  | defect (d : Defect)
  | fault (f : Fault)
deriving DecidableEq

namespace Mark

/-- The line of a place, cut to what is near it, and a caret under the place. -/
def snippet (t : Text) (m : Mark) : Text :=
  let left := ((t.take m.index).reverse).takeWhile fun c => !isBreak c
  let right := (t.drop m.index).takeWhile fun c => !isBreak c
  let cut : Text := " ... "
  let shownLeft : Text :=
    if 37 ≤ left.length then cut ++ (left.take 32).reverse else left.reverse
  let shownRight : Text := if 37 ≤ right.length then right.take 32 ++ cut else right
  Text.spaces 4 ++ shownLeft ++ shownRight ++ "\n" ++ Text.spaces (4 + shownLeft.length) ++ "^"

/-- A place in a message. -/
def message (source : Source) (t : Text) (m : Mark) : Text :=
  let lines : Text := if source.showsLines then ":\n" ++ m.snippet t else []
  "  in \"" ++ source.name ++ "\", line " ++ Text.ofNat (m.line + 1) ++ ", column "
    ++ Text.ofNat (m.column + 1) ++ lines

end Mark

/-- The message of a defect.  The place of the context is left out if it is that of the problem. -/
def Defect.message (source : Source) (t : Text) (d : Defect) : Text :=
  let contextMark :=
    d.contextMark.filter fun m => m.line != d.mark.line || m.column != d.mark.column
  Text.join "\n" <|
    d.context.toList ++ (contextMark.map (·.message source t)).toList ++ [d.problem]
    ++ [d.mark.message source t]

/-- The kind of a defect in messages. -/
def Stage.name : Stage → Text
  | .tokens => "ScannerError"
  | .grammar => "ParserError"
  | .composition => "ComposerError"
  | .construction => "ConstructorError"

/-- An error as a fault. -/
def LoadError.toFault (source : Source) (t : Text) : LoadError → Fault
  | .unacceptable c offset =>
    ⟨"ReaderError",
      "unacceptable character #x" ++ Text.ofNatPadded 16 4 c.val
        ++ ": special characters are not allowed\n  in \"" ++ source.name ++ "\", position "
        ++ Text.ofNat offset⟩
  | .defect d => ⟨d.stage.name, d.message source t⟩
  | .fault f => f

/-- The line of an error, counted from one, if it has one. -/
def LoadError.line? : LoadError → Option Nat
  | .defect d => some (d.mark.line + 1)
  | _ => none

end WorkflowLint.Yaml
