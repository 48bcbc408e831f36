import WorkflowLint.Yaml.Making

/-!
# Reading YAML

`Yaml.load` reads the graph of a text with one document; that of an empty text is null.  A text may
have code points that YAML does not allow.  In a text that is given as such they are found first of
all; a file is read in pieces, and they are found when their piece is needed.
-/

namespace WorkflowLint.Yaml

/-- Whether YAML allows a code point in a text. -/
def isAcceptable (c : CodePoint) : Bool :=
  let n := c.val
  n == 0x9 || n == 0xA || n == 0xD || (decide (0x20 ≤ n) && decide (n ≤ 0x7E)) || n == 0x85
    || (decide (0xA0 ≤ n) && decide (n ≤ 0xD7FF)) || (decide (0xE000 ≤ n) && decide (n ≤ 0xFFFD))
    || decide (0x10000 ≤ n)

/-- The length of the first piece of a file. -/
def firstPiece : Nat := 8192

/-- The length of the other pieces. -/
def nextPiece : Nat := 4096

/-- Where the piece starts that an offset lies in. -/
def pieceStart (offset : Nat) : Nat :=
  if offset < firstPiece then 0
  else firstPiece + (offset - firstPiece) / nextPiece * nextPiece

/-- The barrier of a text from a source: it can be read up to the piece with the first code point
that is not allowed, and not at all if the text is given. -/
def barrier? (source : Source) (t : Text) : Option Barrier :=
  (t.findIdx? fun c => !isAcceptable c).map fun offset =>
    ⟨if source.inPieces then pieceStart offset else 0, (t[offset]?).getD (.char ' '), offset⟩

/-- Reads the graph of a text from a source. -/
def load (source : Source) (t : Text) : Except LoadError Graph :=
  match Document.read t (barrier? source t) with
  | .error e => .error e
  | .ok d => d.graph

end WorkflowLint.Yaml
