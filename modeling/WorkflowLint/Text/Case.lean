import WorkflowLint.Text.Basic
import WorkflowLint.Text.CaseContext
import WorkflowLint.Text.CaseTable

/-!
# Lower and upper case

The full case mappings: every code point is mapped on its own, possibly to several, except for the
capital sigma, whose lower-case form depends on its surroundings.  `matchesIgnoringCase` compares
with an ASCII text letter by letter, where a few letters of other scripts count as ASCII ones.
-/

namespace WorkflowLint

namespace CodePoint

/-- The image of a code point under a case mapping given by runs and by longer images. -/
def mapCase (runs : List CaseRun) (long : List (Nat × List Nat)) (c : CodePoint) : Text :=
  match long.lookup c.val with
  | some image => image.map ofNat
  | none => [((runs.findSome? (·.image? c.val)).map ofNat).getD c]

/-- The lower-case form of a code point, whatever stands around it. -/
def toLower (c : CodePoint) : Text :=
  if c.isUpper then [ofNat (c.val + 32)]
  else if c.val < 0x80 then [c]
  else c.mapCase CaseTable.lowerRuns CaseTable.lowerLong

/-- The upper-case form of a code point. -/
def toUpper (c : CodePoint) : Text :=
  if c.isLower then [ofNat (c.val - 32)]
  else if c.val < 0x80 then [c]
  else c.mapCase CaseTable.upperRuns CaseTable.upperLong

/-- Whether a code point lies in one of the given ranges. -/
def inRanges (ranges : List (Nat × Nat)) (c : CodePoint) : Bool :=
  ranges.any fun r => decide (r.1 ≤ c.val) && decide (c.val ≤ r.2)

/-- Whether a code point is cased and not ignored for case. -/
def isCased (c : CodePoint) : Bool := c.inRanges CaseContext.casedRanges

/-- Whether a code point is passed over in the search for a cased letter. -/
def isCaseIgnored (c : CodePoint) : Bool := c.inRanges CaseContext.ignoredRanges

/-- The code points that count as an ASCII letter, given in lower case, when case is ignored. -/
def sameLetter (letter c : CodePoint) : Bool :=
  letter == c || letter.toUpper == [c] ||
    (letter == .char 's' && c.val == 0x17F) ||
    (letter == .char 'k' && c.val == 0x212A) ||
    (letter == .char 'i' && (c.val == 0x130 || c.val == 0x131))

end CodePoint

namespace Text

/-- Whether the next code point that counts for case is cased. -/
def startsCased (t : Text) : Bool :=
  match t.dropWhile CodePoint.isCaseIgnored with
  | [] => false
  | c :: _ => c.isCased

/-- The lower-case form of what follows `before`, which is given from its end. -/
def lowerAfter (before : Text) : Text → Text
  | [] => []
  | c :: t =>
    (if c.val = 0x3A3 then
        [.char (if startsCased before && !startsCased t then 'ς' else 'σ')]
      else c.toLower) ++ lowerAfter (c :: before) t

/-- The lower-case form of a text. -/
def lower (t : Text) : Text := lowerAfter [] t

/-- The upper-case form of a text. -/
def upper (t : Text) : Text := t.flatMap CodePoint.toUpper

/-- Whether the text begins with a lower-case ASCII text, case being ignored. -/
def startsIgnoringCase : (word t : Text) → Bool
  | [], _ => true
  | _ :: _, [] => false
  | a :: word, c :: t => a.sameLetter c && startsIgnoringCase word t

/-- Whether one of some lower-case ASCII words stands in the text, case being ignored. -/
def containsIgnoringCase (words : List Text) : Text → Bool
  | [] => false
  | c :: t => words.any (startsIgnoringCase · (c :: t)) || containsIgnoringCase words t

end Text
end WorkflowLint
