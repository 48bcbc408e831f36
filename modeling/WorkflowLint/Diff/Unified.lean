import WorkflowLint.Diff.Lines
import WorkflowLint.Diff.Match

/-!
# Differences of texts

`Diff.unified` shows how two texts differ: the lines that are only in the first, the lines that are
only in the second, and around them one line that both have.  Changes that are close to each other
make up one hunk.
-/

namespace WorkflowLint.Diff

/-- A step from one list of lines to the other: equal lines, or lines replaced by others. -/
structure Step where
  equal : Bool
  start : Nat
  stop : Nat
  otherStart : Nat
  otherStop : Nat

/-- How many equal lines are shown around a change. -/
def contextSize : Nat := 1

namespace Step

/-- Whether a step does anything. -/
def isProper (s : Step) : Bool := decide (s.start < s.stop) || decide (s.otherStart < s.otherStop)

/-- The number of lines of the first list. -/
def size (s : Step) : Nat := s.stop - s.start

/-- Equal lines without all but the last few. -/
def keepEnd (s : Step) : Step :=
  { s with
    start := max s.start (s.stop - contextSize)
    otherStart := max s.otherStart (s.otherStop - contextSize) }

/-- Equal lines without all but the first few. -/
def keepStart (s : Step) : Step :=
  { s with
    stop := min s.stop (s.start + contextSize)
    otherStop := min s.otherStop (s.otherStart + contextSize) }

end Step

/-- The steps from two positions on, given the blocks from there on. -/
def stepsFrom (length otherLength : Nat) (i j : Nat) : List Block → List Step
  | [] => [⟨false, i, length, j, otherLength⟩]
  | b :: rest =>
    ⟨false, i, b.start, j, b.other⟩
      :: ⟨true, b.start, b.start + b.size, b.other, b.other + b.size⟩
      :: stepsFrom length otherLength (b.start + b.size) (b.other + b.size) rest

/-- The steps from one list of lines to another. -/
def steps (before after : List Text) : List Step :=
  (stepsFrom before.length after.length 0 0 (blocks before after)).filter Step.isProper

/-! ## Hunks -/

/-- Shortens equal lines at the start. -/
def trimStart : List Step → List Step
  | [] => []
  | s :: rest => (if s.equal then s.keepEnd else s) :: rest

/-- Shortens equal lines at the end. -/
def trimEnd : List Step → List Step
  | [] => []
  | [s] => [if s.equal then s.keepStart else s]
  | s :: rest => s :: trimEnd rest

/-- The hunks of some steps, `hunk` being the steps of the one that is not finished.  Equal lines
that are too many to be shown start a new one. -/
def hunksFrom (hunk : List Step) : List Step → List (List Step)
  | [] => [hunk]
  | s :: rest =>
    if s.equal ∧ 2 * contextSize < s.size then
      (hunk ++ [s.keepStart]) :: hunksFrom [s.keepEnd] rest
    else hunksFrom (hunk ++ [s]) rest

/-- The hunks of some steps; equal lines alone are none. -/
def hunks (all : List Step) : List (List Step) :=
  (hunksFrom [] (trimEnd (trimStart all))).filter fun hunk => hunk.any fun s => !s.equal

/-! ## Writing -/

/-- The position and the number of some lines; the number is left out if it is one. -/
def rangeText (start stop : Nat) : Text :=
  let size := stop - start
  if size = 1 then Text.ofNat (start + 1)
  else
    let position := if size = 0 then start else start + 1
    Text.ofNat position ++ "," ++ Text.ofNat size

/-- The lines from one position up to another, each after a sign. -/
def marked (sign : Text) (lines : List Text) (start stop : Nat) : Text :=
  ((lines.take stop).drop start).flatMap fun line => sign ++ line

/-- The lines of a step. -/
def stepText (before after : List Text) (s : Step) : Text :=
  if s.equal then marked " " before s.start s.stop
  else marked "-" before s.start s.stop ++ marked "+" after s.otherStart s.otherStop

/-- The lines of a hunk, after those that say where it is. -/
def hunkText (before after : List Text) (hunk : List Step) : Text :=
  match hunk.head?, hunk.getLast? with
  | some first, some last =>
    "@@ -" ++ rangeText first.start last.stop ++ " +" ++ rangeText first.otherStart last.otherStop
      ++ " @@\n" ++ hunk.flatMap (stepText before after)
  | _, _ => []

/-- How two texts differ; nothing if they have the same lines. -/
def unified (before after path : Text) : Text :=
  let a := before.lines
  let b := after.lines
  let body := (hunks (steps a b)).flatMap (hunkText a b)
  if body.isEmpty then []
  else "--- " ++ path ++ " (before)\n+++ " ++ path ++ " (after)\n" ++ body

end WorkflowLint.Diff
