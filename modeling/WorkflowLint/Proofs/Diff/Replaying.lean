import Mathlib.Data.List.Chain
import WorkflowLint.Proofs.Diff.Hunks
import WorkflowLint.Proofs.Text.Lines

/-!
# Replaying a difference

How the difference of two texts is to be read: row by row, two rows that name the files, and then
hunks.  A hunk says where it stands in both texts and how many lines it has there, and then shows the
lines of both, those only in the first and those only in the second.  `Replays` puts its new lines in
place of its old ones, and `Faithful` says that this turns the one text into the other.

The hunks that the program writes do so for the lists of lines they are made of
(`written_hunksOf`), before they are put together to one text.
-/

namespace WorkflowLint.Diff

open Text (feed)

/-! ## Hunks as they are read -/

/-- Which text has a line. -/
inductive Mark where
  | both
  | removed
  | added
deriving DecidableEq

/-- The sign in front of a line. -/
def Mark.sign : Mark → CodePoint
  | .both => .char ' '
  | .removed => .char '-'
  | .added => .char '+'

/-- A line of a hunk. -/
structure Item where
  mark : Mark
  line : Text

/-- A line after its sign. -/
def Item.row (x : Item) : Text := x.mark.sign :: x.line

/-- The lines that do not have a certain mark: the lines of the first text are those that are not added,
the lines of the second those that are not removed. -/
def without (m : Mark) (items : List Item) : List Text := (items.filter (·.mark ≠ m)).map Item.line

/-- Lines that stand together, from some position on in the first text and some other in the
second. -/
structure Hunk where
  start : Nat
  size : Nat
  otherStart : Nat
  otherSize : Nat
  items : List Item

/-- The position and the number of some lines.  Positions count from one, and if there is no line,
that of the line before is given; the number one is left out. -/
def spanText (start size : Nat) : Text :=
  let position := if size = 0 then start else start + 1
  if size = 1 then Text.ofNat position else Text.ofNat position ++ "," ++ Text.ofNat size

namespace Hunk

/-- The row that says where a hunk stands. -/
def header (h : Hunk) : Text :=
  "@@ -" ++ spanText h.start h.size ++ " +" ++ spanText h.otherStart h.otherSize ++ " @@"

/-- The rows of a hunk. -/
def rows (h : Hunk) : List Text := h.header :: h.items.map Item.row

/-- Whether the numbers in the header of a hunk are those of its lines. -/
def Counted (h : Hunk) : Prop :=
  h.size = (without .added h.items).length ∧ h.otherSize = (without .removed h.items).length

end Hunk

/-- Replaying hunks: the lines before a hunk are kept, and its new lines take the place of its old
ones.  The positions count the lines that precede in both texts. -/
inductive Replays : Nat → Nat → List Text → List Hunk → List Text → Prop
  | nil {i j : Nat} (rest : List Text) : Replays i j rest [] rest
  | cons {i j : Nat} {h : Hunk} {hs : List Hunk} {rest rest' : List Text} (gap : List Text)
      (hi : h.start = i + gap.length) (hj : h.otherStart = j + gap.length)
      (hrest : Replays (h.start + h.size) (h.otherStart + h.otherSize) rest hs rest') :
      Replays i j (gap ++ (without .added h.items ++ rest)) (h :: hs)
        (gap ++ (without .removed h.items ++ rest'))

/-- Whether a difference, read row by row, has two rows that name the files and then hunks whose
numbers are right and which, replayed on the lines of the first text, give those of the second. -/
def Faithful (path before after difference : Text) : Prop :=
  ∃ hs : List Hunk,
    difference.rows =
      ("--- " ++ path ++ " (before)") :: ("+++ " ++ path ++ " (after)") :: hs.flatMap Hunk.rows ∧
    (∀ h ∈ hs, h.Counted) ∧
    Replays 0 0 (before.lines.map Text.bare) hs (after.lines.map Text.bare)

/-! ## Lines of hunks -/

variable {a b rest rest' : List Text} {i i' j j' least : Nat} {hs : List Hunk} {h : Hunk}
  {items items' : List Item} {x : Item}

@[simp] theorem without_nil (m : Mark) : without m [] = [] := rfl

theorem without_cons (m : Mark) (x : Item) (items : List Item) :
    without m (x :: items) = if x.mark = m then without m items else x.line :: without m items := by
  by_cases hx : x.mark = m <;> simp [without, hx]

@[simp] theorem without_append (m : Mark) (items items' : List Item) :
    without m (items ++ items') = without m items ++ without m items' := by
  simp [without]

@[simp] theorem without_map (m m' : Mark) (lines : List Text) :
    without m (lines.map (Item.mk m')) = if m' = m then [] else lines := by
  by_cases hm : m' = m <;> simp [without, List.filter_map, Function.comp_def, hm]

theorem mem_without (hx : x ∈ items) {m : Mark} (hmark : x.mark ≠ m) : x.line ∈ without m items :=
  List.mem_map_of_mem (List.mem_filter.2 ⟨hx, decide_eq_true hmark⟩)

/-- What one text has more than the other is what was added to it. -/
theorem length_without_add (items : List Item) :
    (without .added items).length + items.countP (·.mark = .added)
      = (without .removed items).length + items.countP (·.mark = .removed) := by
  induction items with
  | nil => rfl
  | cons x items ih =>
    rw [without_cons, without_cons, List.countP_cons, List.countP_cons]
    cases hx : x.mark <;> simp <;> omega

namespace Replays

theorem length_add (h : Replays i j a hs b) :
    a.length + (hs.flatMap Hunk.items).countP (·.mark = .added)
      = b.length + (hs.flatMap Hunk.items).countP (·.mark = .removed) := by
  induction h with
  | nil rest => rfl
  | @cons _ _ h _ _ _ gap _ _ _ ih =>
    have hhunk := length_without_add h.items
    simp only [List.length_append, List.flatMap_cons, List.countP_append]
    omega

/-- The lines of the hunks are lines of the texts. -/
theorem mem_or_mem (hr : Replays i j a hs b) (hh : h ∈ hs) (hx : x ∈ h.items) :
    x.line ∈ a ∨ x.line ∈ b := by
  induction hr with
  | nil rest => exact absurd hh List.not_mem_nil
  | cons gap hi hj hrest ih =>
    simp only [List.mem_append]
    obtain rfl | hh := List.mem_cons.1 hh
    · by_cases hmark : x.mark = .added
      · exact .inr (.inr (.inl (mem_without hx (by simp [hmark]))))
      · exact .inl (.inr (.inl (mem_without hx hmark)))
    · exact (ih hh).imp (fun hmem => .inr (.inr hmem)) fun hmem => .inr (.inr hmem)

end Replays

/-! ## Hunks as they are written -/

variable {s : Step} {all hunk : List Step} {parts : List (List Step)}

/-- The lines from one position up to another. -/
def segment (lines : List Text) (start stop : Nat) : List Text := (lines.take stop).drop start

/-- The lines of a step. -/
def Step.shown (a b : List Text) (s : Step) : List Item :=
  if s.equal then (segment a s.start s.stop).map (Item.mk .both)
  else
    (segment a s.start s.stop).map (Item.mk .removed)
      ++ (segment b s.otherStart s.otherStop).map (Item.mk .added)

/-- A hunk from its steps. -/
def hunkOf (a b : List Text) (hunk : List Step) : Hunk :=
  let start := hunk.head?.elim 0 Step.start
  let otherStart := hunk.head?.elim 0 Step.otherStart
  ⟨start, hunk.getLast?.elim 0 Step.stop - start, otherStart,
    hunk.getLast?.elim 0 Step.otherStop - otherStart, hunk.flatMap (Step.shown a b)⟩

/-- The hunks that the difference of two lists of lines has. -/
def hunksOf (a b : List Text) : List Hunk := (hunks (steps a b)).map (hunkOf a b)

theorem segment_eq (lines : List Text) (start stop : Nat) :
    segment lines start stop = (lines.drop start).take (stop - start) := List.drop_take

theorem segment_append (hi : i ≤ i') (hi' : i' ≤ k) (lines : List Text) :
    segment lines i i' ++ segment lines i' k = segment lines i k := by
  obtain ⟨m, rfl⟩ := Nat.exists_eq_add_of_le hi
  obtain ⟨n, rfl⟩ := Nat.exists_eq_add_of_le hi'
  rw [segment_eq, segment_eq, segment_eq, Nat.add_sub_cancel_left, Nat.add_sub_cancel_left,
    Nat.add_assoc, Nat.add_sub_cancel_left, List.take_add, List.drop_drop]

theorem segment_append_drop (hi : i ≤ i') (lines : List Text) :
    segment lines i i' ++ lines.drop i' = lines.drop i := by
  obtain ⟨m, rfl⟩ := Nat.exists_eq_add_of_le hi
  rw [segment_eq, Nat.add_sub_cancel_left, ← List.drop_drop, List.take_append_drop]

theorem length_segment {lines : List Text} (hi : i' ≤ lines.length) :
    (segment lines i i').length = i' - i := by
  rw [segment, List.length_drop, List.length_take, Nat.min_eq_left hi]

theorem Common.segment_eq_segment (h : Common a b i j k) :
    segment a i (i + k) = segment b j (j + k) := by
  rw [segment_eq, segment_eq, Nat.add_sub_cancel_left, Nat.add_sub_cancel_left]
  refine List.ext_getElem? fun d => ?_
  rw [List.getElem?_take, List.getElem?_take, List.getElem?_drop, List.getElem?_drop]
  split
  · rename_i hd
    exact h d hd
  · rfl

theorem without_added_shown (a b : List Text) (s : Step) :
    without .added (s.shown a b) = segment a s.start s.stop := by
  rw [Step.shown]
  split <;> simp

theorem without_removed_shown (h : s.Sound a b) :
    without .removed (s.shown a b) = segment b s.otherStart s.otherStop := by
  rw [Step.shown]
  split
  · rename_i hequal
    have hle := h.le
    have hcommon := (h.common hequal).segment_eq_segment
    rw [← h.otherStop_eq hequal, Step.size, Nat.add_sub_cancel' hle] at hcommon
    simp [hcommon]
  · simp

theorem Leads.start_le (h : Leads a b i j all i' j') (hne : all ≠ []) :
    i ≤ a.length ∧ j ≤ b.length := by
  cases h with
  | nil => exact absurd rfl hne
  | cons hs hi hj _ =>
    subst hi hj
    exact ⟨Nat.le_trans hs.le hs.stop_le, Nat.le_trans hs.otherLe hs.otherStop_le⟩

/-- What steps lead through is what their lines replace and what they replace it with. -/
theorem Leads.segments (h : Leads a b i j all i' j') (hi' : i ≤ a.length) (hj' : j ≤ b.length) :
    i ≤ i' ∧ i' ≤ a.length ∧ j ≤ j' ∧ j' ≤ b.length ∧
      without .added (all.flatMap (Step.shown a b)) = segment a i i' ∧
      without .removed (all.flatMap (Step.shown a b)) = segment b j j' := by
  induction h with
  | nil =>
    simp [segment, hi', hj']
  | cons hs hi hj hrest ih =>
    obtain ⟨hle, hstop, hotherLe, hotherStop, hold, hnew⟩ := ih hs.stop_le hs.otherStop_le
    have hsle := hs.le
    have hsotherLe := hs.otherLe
    subst hi hj
    refine ⟨by omega, hstop, by omega, hotherStop, ?_, ?_⟩
    · rw [List.flatMap_cons, without_append, without_added_shown, hold, segment_append hsle hle]
    · rw [List.flatMap_cons, without_append, without_removed_shown hs, hnew, segment_append hsotherLe hotherLe]

theorem Leads.hunkOf_eq (h : Leads a b i j hunk i' j') (hne : hunk ≠ []) :
    hunkOf a b hunk = ⟨i, i' - i, j, j' - j, hunk.flatMap (Step.shown a b)⟩ := by
  have hfirst : hunk.head?.elim 0 Step.start = i ∧ hunk.head?.elim 0 Step.otherStart = j := by
    cases h with
    | nil => exact absurd rfl hne
    | cons _ hi hj _ => exact ⟨hi, hj⟩
  have hlast : hunk.getLast?.elim 0 Step.stop = i' ∧ hunk.getLast?.elim 0 Step.otherStop = j' := by
    clear hfirst
    induction h with
    | nil => exact absurd rfl hne
    | @cons _ _ _ _ _ rest _ _ _ hrest ih =>
      cases rest with
      | nil =>
        cases hrest
        exact ⟨rfl, rfl⟩
      | cons next rest =>
        rw [List.getLast?_cons_cons]
        exact ih (List.cons_ne_nil next rest)
  rw [hunkOf, hfirst.1, hfirst.2, hlast.1, hlast.2]

/-- Whether something is left out between any two hunks. -/
def Apart (hs : List Hunk) : Prop := hs.IsChain fun h h' => h.start + h.size < h'.start

/-- What hunks that cover two lists are for a reader. -/
structure Written (a b : List Text) (i j least : Nat) (hs : List Hunk) : Prop where
  replays : Replays i j (a.drop i) hs (b.drop j)
  counted : ∀ h ∈ hs, h.Counted
  apart : Apart hs
  le_start : ∀ h ∈ hs.head?, i + least ≤ h.start

theorem Covers.written (h : Covers a b least i j parts) (hne : ∀ hunk ∈ parts, hunk ≠ [])
    (hi' : i ≤ a.length) (hj' : j ≤ b.length) :
    Written a b i j least (parts.map (hunkOf a b)) := by
  induction h with
  | @nil _ i j k hcommon hi hj =>
    have hsame := hcommon.segment_eq_segment
    have ha : segment a i (i + k) = a.drop i := by rw [hi, segment, List.take_length]
    have hb : segment b j (j + k) = b.drop j := by rw [hj, segment, List.take_length]
    rw [ha, hb] at hsame
    refine ⟨?_, List.forall_mem_nil _, .nil, nofun⟩
    rw [hsame]
    exact .nil _
  | @cons least i j stop otherStop gap hunk parts hleast hcommon hhunk hrest ih =>
    obtain ⟨hhunkne, hne⟩ := List.forall_mem_cons.1 hne
    obtain ⟨hstart, hotherStart⟩ := hhunk.start_le hhunkne
    obtain ⟨hle, hstop, hotherLe, hotherStop, hold, hnew⟩ := hhunk.segments hstart hotherStart
    obtain ⟨hreplays, hcounted, hapart, hbehind⟩ := ih hne hstop hotherStop
    rw [List.map_cons, hhunk.hunkOf_eq hhunkne]
    have hsize : i + gap + (stop - (i + gap)) = stop := Nat.add_sub_cancel' hle
    have hotherSize : j + gap + (otherStop - (j + gap)) = otherStop := Nat.add_sub_cancel' hotherLe
    have hgap : (segment a i (i + gap)).length = gap := by
      rw [length_segment hstart, Nat.add_sub_cancel_left]
    refine ⟨?replays, ?counted, ?apart, ?first⟩
    case replays =>
      have ha : a.drop i
          = segment a i (i + gap)
            ++ (without .added (hunk.flatMap (Step.shown a b)) ++ a.drop stop) := by
        rw [hold, segment_append_drop hle, segment_append_drop (Nat.le_add_right i gap)]
      have hb : b.drop j
          = segment a i (i + gap)
            ++ (without .removed (hunk.flatMap (Step.shown a b)) ++ b.drop otherStop) := by
        rw [hcommon.segment_eq_segment, hnew, segment_append_drop hotherLe,
          segment_append_drop (Nat.le_add_right j gap)]
      rw [ha, hb]
      refine .cons (h := ⟨i + gap, stop - (i + gap), j + gap, otherStop - (j + gap),
        hunk.flatMap (Step.shown a b)⟩) (segment a i (i + gap)) ?_ ?_ ?_
      · rw [hgap]
      · rw [hgap]
      · rwa [hsize, hotherSize]
    case counted =>
      refine List.forall_mem_cons.2 ⟨?_, hcounted⟩
      exact ⟨by rw [hold, length_segment hstop], by rw [hnew, length_segment hotherStop]⟩
    case apart =>
      refine List.isChain_cons.2 ⟨fun h' hh' => ?_, hapart⟩
      simp only
      rw [hsize]
      exact hbehind h' hh'
    case first =>
      intro first hfirst
      obtain rfl := Option.some.inj hfirst
      exact Nat.add_le_add_left hleast i

/-- The hunks of two lists of lines turn the one into the other. -/
theorem written_hunksOf (a b : List Text) : Written a b 0 0 0 (hunksOf a b) := by
  refine (covers_hunks a b).written (fun hunk hmem => ?_) (Nat.zero_le _) (Nat.zero_le _)
  obtain ⟨s, hs, -⟩ := exists_change hmem
  exact List.ne_nil_of_mem hs

end WorkflowLint.Diff
