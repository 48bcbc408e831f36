import Std.Data.HashMap
import WorkflowLint.Text.Basic

/-!
# Matching lines

Two lists of lines are matched block by block: first the longest block of lines that both have, and
then what lies before it and what lies behind it in the same way.  Of several longest blocks the one
that starts first counts, in the first list and then in the second.

Lines that occur very often in a long second list do not start blocks, but they can make a block
longer.
-/

namespace WorkflowLint.Diff

/-- Lines from position `start` in the first list that equal those from `other` in the second. -/
structure Block where
  start : Nat
  other : Nat
  size : Nat
deriving DecidableEq

/-! ## Where lines occur -/

/-- The positions at which each line of a list occurs, in order. -/
abbrev LineIndex := Std.HashMap Text (List Nat)

namespace LineIndex

/-- Where a line occurs. -/
def places (index : LineIndex) (line : Text) : List Nat := index.getD line []

/-- Puts a position before those of a line. -/
def add (index : LineIndex) (line : Text) (position : Nat) : LineIndex :=
  index.insert line (position :: index.places line)

/-- Where the lines of a list occur. -/
def of (lines : List Text) : LineIndex :=
  lines.zipIdx.foldr (fun p index => index.add p.1 p.2) ∅

theorem places_add (index : LineIndex) (line other : Text) (position : Nat) :
    (index.add line position).places other =
      if line = other then position :: index.places other else index.places other := by
  by_cases h : line = other <;> simp [add, places, Std.HashMap.getD_insert, h]

/-- A line occurs exactly at the positions that hold it. -/
theorem mem_places_of {lines : List Text} {line : Text} {position : Nat} :
    position ∈ (of lines).places line ↔ lines[position]? = some line := by
  rw [← List.mk_mem_zipIdx_iff_getElem?, of]
  induction lines.zipIdx with
  | nil => simp [places]
  | cons p ps ih =>
    by_cases h : p.1 = line <;> simp [places_add, h, ih, Prod.ext_iff, eq_comm]

end LineIndex

/-- The two lists that are matched. -/
structure Sides where
  before : Array Text
  after : Array Text
  /-- For each line of the first list, where it occurs in the second. -/
  places : Array (List Nat)

namespace Sides

/-- From this many lines on, there are lines that occur very often. -/
def longList : Nat := 200

/-- Whether a number of occurrences in a list of some length is too large to start blocks. -/
def occursTooOften (length count : Nat) : Bool :=
  decide (longList ≤ length) && decide (length / 100 + 1 < count)

/-- Where a line occurs in a list of some length, unless it occurs too often. -/
def placesOf (index : LineIndex) (length : Nat) (line : Text) : List Nat :=
  let places := index.places line
  if occursTooOften length places.length then [] else places

/-- Two lists as sides. -/
def of (before after : List Text) : Sides :=
  let index := LineIndex.of after
  ⟨before.toArray, after.toArray, (before.map (placesOf index after.length)).toArray⟩

/-- Whether the lines at two positions are equal. -/
def same (s : Sides) (i j : Nat) : Bool := s.before[i]? == s.after[j]?

end Sides

/-- A part of both lists: the lines from one position up to another. -/
structure Window where
  start : Nat
  stop : Nat
  otherStart : Nat
  otherStop : Nat

/-! ## The longest block -/

/-- The longest block found so far, and how long the blocks are that end at the last line looked at,
by where they end in the second list. -/
structure Search where
  best : Block
  ending : List (Nat × Nat)

/-- How long the block is that ends before a position. -/
def Search.sizeBefore (ending : List (Nat × Nat)) (j : Nat) : Nat :=
  match j with
  | 0 => 0
  | j + 1 => ((ending.find? fun e => e.1 == j).map (·.2)).getD 0

/-- Goes on with the line at position `i`. -/
def Search.step (s : Sides) (w : Window) (found : Search) (i : Nat) : Search :=
  let places := ((s.places[i]?).getD []).filter fun j =>
    decide (w.otherStart ≤ j) && decide (j < w.otherStop)
  let ending := places.map fun j => (j, sizeBefore found.ending j + 1)
  let best := ending.foldl
    (fun best e => if best.size < e.2 then ⟨i + 1 - e.2, e.1 + 1 - e.2, e.2⟩ else best) found.best
  ⟨best, ending⟩

/-- How many lines before two positions are equal. -/
def equalBefore (s : Sides) (w : Window) : (i j : Nat) → Nat
  | i + 1, j + 1 =>
    if w.start ≤ i ∧ w.otherStart ≤ j ∧ s.same i j then equalBefore s w i j + 1 else 0
  | _, _ => 0

/-- How many of the next `count` lines from two positions on are equal. -/
def equalFrom (s : Sides) (w : Window) (i j : Nat) : (count : Nat) → Nat
  | 0 => 0
  | count + 1 =>
    if j < w.otherStop ∧ s.same i j then equalFrom s w (i + 1) (j + 1) count + 1 else 0

/-- A block with the equal lines around it. -/
def Block.extend (s : Sides) (w : Window) (b : Block) : Block :=
  let ahead := equalBefore s w b.start b.other
  let behind :=
    equalFrom s w (b.start + b.size) (b.other + b.size) (w.stop - (b.start + b.size))
  ⟨b.start - ahead, b.other - ahead, ahead + b.size + behind⟩

/-- The longest block of a window; it is empty if there is none. -/
def longestBlock (s : Sides) (w : Window) : Block :=
  let start : Search := ⟨⟨w.start, w.otherStart, 0⟩, []⟩
  let lines := (List.range (w.stop - w.start)).map (w.start + ·)
  (lines.foldl (Search.step s w) start).best.extend s w

/-! ## All blocks -/

/-- The blocks of a window, in order. -/
def blocksIn (s : Sides) : (fuel : Nat) → Window → List Block
  | 0, _ => []
  | fuel + 1, w =>
    let b := longestBlock s w
    if b.size = 0 then []
    else
      let left :=
        if w.start < b.start ∧ w.otherStart < b.other then
          blocksIn s fuel ⟨w.start, b.start, w.otherStart, b.other⟩
        else []
      let right :=
        if b.start + b.size < w.stop ∧ b.other + b.size < w.otherStop then
          blocksIn s fuel ⟨b.start + b.size, w.stop, b.other + b.size, w.otherStop⟩
        else []
      left ++ b :: right

/-- Joins a block to the next one if nothing lies between them. -/
def joinBlock (b : Block) : List Block → List Block
  | [] => [b]
  | next :: rest =>
    if b.start + b.size = next.start ∧ b.other + b.size = next.other then
      ⟨b.start, b.other, b.size + next.size⟩ :: rest
    else b :: next :: rest

/-- The blocks that two lists have in common, in order. -/
def blocks (before after : List Text) : List Block :=
  let w : Window := ⟨0, before.length, 0, after.length⟩
  (blocksIn (Sides.of before after) (before.length + 1) w).foldr joinBlock []

end WorkflowLint.Diff
