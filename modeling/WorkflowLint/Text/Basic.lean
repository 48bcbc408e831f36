import WorkflowLint.Text.CodePoint

/-!
# Texts

A text is a list of code points.  This module has the operations that need no table: searching,
cutting, replacing and joining, decimal numerals, line numbers, and the order by code points.

The scanners of the library all have the same form: a recogniser looks at what lies ahead and
says what it found and how long it is, and `occurrences` collects the finds that do not overlap,
from left to right, with their offsets.
-/

namespace WorkflowLint

/-- A text is a list of code points. -/
abbrev Text := List CodePoint

namespace Text

/-- The code points of a string. -/
def ofString (s : String) : Text := s.toList.map .char

instance : Coe String Text := ⟨ofString⟩

/-- The text of one character. -/
def ofChar (c : Char) : Text := [.char c]

/-- So many spaces. -/
def spaces (n : Nat) : Text := List.replicate n (.char ' ')

/-! ## Searching and cutting -/

/-- What follows `start` in a text that begins with it. -/
def afterStart? (start t : Text) : Option Text :=
  if start.isPrefixOf t then some (t.drop start.length) else none

/-- Whether a part stands somewhere in the text. -/
def hasPart : (t part : Text) → Bool
  | [], part => part.isEmpty
  | c :: t, part => part.isPrefixOf (c :: t) || hasPart t part

/-- The finds of a recogniser, each with its offset counted from `offset`, after `skip` code
points.  A find of length `n` hides the recogniser from the `n - 1` code points that follow. -/
def occurrencesFrom {α : Type} (find? : Text → Option (α × Nat)) :
    (offset skip : Nat) → Text → List (Nat × α)
  | _, _, [] => []
  | offset, skip + 1, _ :: t => occurrencesFrom find? (offset + 1) skip t
  | offset, 0, c :: t =>
    match find? (c :: t) with
    | some (a, n) => (offset, a) :: occurrencesFrom find? (offset + 1) (n - 1) t
    | none => occurrencesFrom find? (offset + 1) 0 t

/-- The finds of a recogniser that do not overlap, from left to right. -/
def occurrences {α : Type} (t : Text) (find? : Text → Option (α × Nat)) : List (Nat × α) :=
  occurrencesFrom find? 0 0 t

/-- Replaces the occurrences of a non-empty text, after `skip` code points. -/
def replaceFrom (old new : Text) : (skip : Nat) → Text → Text
  | _, [] => []
  | skip + 1, _ :: t => replaceFrom old new skip t
  | 0, c :: t =>
    if old.isPrefixOf (c :: t) then new ++ replaceFrom old new (old.length - 1) t
    else c :: replaceFrom old new 0 t

/-- Replaces all occurrences of `old`, from left to right; the empty text occurs at both ends and
between any two code points. -/
def replaceAll (t old new : Text) : Text :=
  if old.isEmpty then new ++ t.flatMap fun c => c :: new else replaceFrom old new 0 t

/-- Drops the code points of a class from both ends. -/
def trim (p : CodePoint → Bool) (t : Text) : Text :=
  ((t.dropWhile p).reverse.dropWhile p).reverse

/-- The parts of a text between the occurrences of a code point. -/
def parts (sep : CodePoint) : Text → List Text
  | [] => [[]]
  | c :: t =>
    match parts sep t with
    | [] => [[c]]
    | p :: ps => if c = sep then [] :: p :: ps else (c :: p) :: ps

/-- The parts joined by a separator. -/
def join (sep : Text) : List Text → Text
  | [] => []
  | [p] => p
  | p :: ps => p ++ sep ++ join sep ps

/-- What stands after the last occurrence of a code point, or the whole text. -/
def afterLast (sep : CodePoint) (t : Text) : Text :=
  (t.reverse.takeWhile (· != sep)).reverse

/-! ## Numerals -/

/-- The decimal numeral of a number. -/
def ofNat (n : Nat) : Text := (Nat.toDigits 10 n).map .char

/-- The decimal numeral of an integer. -/
def ofInt : Int → Text
  | .ofNat n => ofNat n
  | .negSucc n => .char '-' :: ofNat (n + 1)

/-- The numeral of a number in some base up to sixteen, padded with zeros to a width. -/
def ofNatPadded (base width n : Nat) : Text :=
  let digits := (Nat.toDigits base n).map CodePoint.char
  List.replicate (width - digits.length) (.char '0') ++ digits

/-- The value of a text of digits from `0` to `9`. -/
def toNat (t : Text) : Nat := t.foldl (fun n c => n * 10 + c.digitValue) 0

/-- The value of a text of digits in some base up to sixteen, each having a value. -/
def toNatBase (base : Nat) (t : Text) : Nat :=
  t.foldl (fun n c => n * base + c.hexValue?.getD 0) 0

/-! ## Lines -/

/-- The number of the line on which an offset lies, counted from one; an offset below zero counts
from the end of the text. -/
def lineAt (t : Text) (offset : Int) : Nat :=
  let count := if offset < 0 then t.length - (-offset).toNat else offset.toNat
  (t.take count).count (.char '\n') + 1

/-! ## Order -/

/-- Texts are compared by the numbers of their code points, from left to right. -/
def compare : Text → Text → Ordering
  | [], [] => .eq
  | [], _ :: _ => .lt
  | _ :: _, [] => .gt
  | a :: s, b :: t => (Ord.compare a.val b.val).then (compare s t)

/-- Whether the first text comes first or both are equal. -/
def le (s t : Text) : Bool := compare s t != .gt

end Text
end WorkflowLint
