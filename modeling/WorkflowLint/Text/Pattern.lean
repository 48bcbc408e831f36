import WorkflowLint.Text.Basic

/-!
# Patterns

A pattern says in which ways the start of a text can be matched, by what each way leaves of the
text.  A text matches a pattern if one of the ways leaves nothing.
-/

namespace WorkflowLint

/-- The rests of a text after the ways in which its start can be matched. -/
abbrev Pattern := Text → List Text

namespace Pattern

/-- One code point of a class. -/
def unit (p : CodePoint → Bool) : Pattern
  | [] => []
  | c :: t => if p c then [t] else []

/-- One of some characters. -/
def oneOf (chars : String) : Pattern := unit (Text.ofString chars).contains

/-- A digit from `0` to `9`. -/
def digit : Pattern := unit CodePoint.isDigit

/-- A given text. -/
def word (w : String) : Pattern := fun t => (Text.afterStart? w t).toList

/-- One of some given texts. -/
def oneWord (words : List String) : Pattern := fun t => words.flatMap fun w => word w t

/-- Code points of a class, or none. -/
def many (p : CodePoint → Bool) : Pattern
  | [] => [[]]
  | c :: t => if p c then (c :: t) :: many p t else [c :: t]

/-- Characters out of some, or none. -/
def manyOf (chars : String) : Pattern := many (Text.ofString chars).contains

/-- Some patterns one after the other. -/
def all : List Pattern → Pattern
  | [] => fun t => [t]
  | p :: ps => fun t => (p t).flatMap (all ps)

/-- One of some patterns. -/
def any (ps : List Pattern) : Pattern := fun t => ps.flatMap fun p => p t

/-- A pattern or nothing. -/
def optional (p : Pattern) : Pattern := fun t => p t ++ [t]

/-- A pattern up to so many times, at least once. -/
def repeatedFrom (p : Pattern) : (fuel : Nat) → Pattern
  | 0 => fun _ => []
  | fuel + 1 => fun t => (p t).flatMap fun rest => rest :: repeatedFrom p fuel rest

/-- A pattern, at least once. -/
def repeated (p : Pattern) : Pattern := fun t => repeatedFrom p t.length t

/-- Whether a text matches a pattern. -/
def matchesAll (p : Pattern) (t : Text) : Bool := (p t).any List.isEmpty

end Pattern
end WorkflowLint
