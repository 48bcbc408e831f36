import WorkflowLint.Text.Case

/-!
# Edit distance

The distance of two texts is the number of code points that have to be inserted, deleted or replaced
to turn one into the other.  It is computed row by row: the row of a text has its distances from
all the starts of the other text, and a longer text has a row that follows from that of a shorter.
-/

namespace WorkflowLint.Text

/-- The distances that follow `left` in the row of a text extended by `c`, next to those in the row
of the text itself, the first of which stands above `left`. -/
def nextDistances (c : CodePoint) : (left : Nat) → (above : List Nat) → Text → List Nat
  | left, diagonal :: up :: above, d :: t =>
    let here := min (min (up + 1) (left + 1)) (diagonal + if c = d then 0 else 1)
    here :: nextDistances c here (up :: above) t
  | _, _, _ => []

/-- The row of a text extended by a code point. -/
def nextRow (t : Text) (row : List Nat) (c : CodePoint) : List Nat :=
  let left := row.headD 0 + 1
  left :: nextDistances c left row t

/-- The row of a text: its distances from the starts of `t`, the shortest first. -/
def distanceRow (s t : Text) : List Nat := s.foldl (nextRow t) (List.range (t.length + 1))

/-- The distance of a text from one that is not longer. -/
def distanceFrom (s t : Text) : Nat :=
  if t.isEmpty then s.length else ((distanceRow s t).getLast?).getD 0

/-- The distance of two texts, of which the longer one is gone through. -/
def distance (s t : Text) : Nat := if s.length < t.length then distanceFrom t s else distanceFrom s t

/-- Whether a candidate at a distance comes before another one: if it is closer, or as close and
first by its code points. -/
def closer (a b : Nat × Text) : Bool :=
  decide (a.1 < b.1) || (a.1 == b.1 && le a.2 b.2)

/-- At most three candidates within a distance of a name, the closest first; case does not count. -/
def suggestions (name : Text) (candidates : List Text) (limit : Int) : List Text :=
  let scored := candidates.map fun c => (distance name.lower c.lower, c)
  let near := scored.filter fun s => decide ((s.1 : Int) ≤ limit)
  ((near.mergeSort closer).take 3).map (·.2)

end WorkflowLint.Text
