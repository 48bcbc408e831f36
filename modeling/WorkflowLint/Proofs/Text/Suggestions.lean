import WorkflowLint.Proofs.Text.Distance

/-!
# The closest candidates

Suggestions are the first three candidates in the order of their distance from a name, and of their code
points where the distance is the same (`suggestions_eq`).  Together with what the distance is this is the
main result (`suggestions_closest`).
-/

namespace WorkflowLint.Text

variable {name c d s t : Text} {candidates : List Text} {limit : ℤ}

/-- The place of a candidate in the order of suggestions: by its distance from the name, then by the
numbers of its code points. -/
def rank (name c : Text) : ℕ ×ₗ List ℕ := toLex (distance name.lower c.lower, c.map CodePoint.val)

/-- A candidate is so close to a name that it can be suggested. -/
def Near (name : Text) (limit : ℤ) (c : Text) : Prop := (distance name.lower c.lower : ℤ) ≤ limit

instance (name : Text) (limit : ℤ) : DecidablePred (Near name limit) :=
  fun c => inferInstanceAs (Decidable ((distance name.lower c.lower : ℤ) ≤ limit))

theorem compare_eq_gt_iff : compare s t = .gt ↔ t.map CodePoint.val < s.map CodePoint.val := by
  induction s generalizing t with
  | nil =>
    refine iff_of_false (fun h => ?_) (List.not_lt_nil _)
    cases t <;> cases h
  | cons c s ih =>
    cases t with
    | nil => exact iff_of_true rfl (List.nil_lt_cons _ _)
    | cons d t =>
      rw [compare, Ordering.then_eq_gt, Nat.compare_eq_gt, Nat.compare_eq_eq, ih, List.map_cons,
        List.map_cons, List.cons_lt_cons_iff, eq_comm]

theorem le_iff : le s t = true ↔ s.map CodePoint.val ≤ t.map CodePoint.val := by
  rw [le, bne_iff_ne, Ne, compare_eq_gt_iff, not_lt]

/-- Candidates are compared by their ranks. -/
theorem closer_eq (name c d : Text) :
    closer (distance name.lower c.lower, c) (distance name.lower d.lower, d) =
      decide (rank name c ≤ rank name d) := by
  rw [Bool.eq_iff_iff, decide_eq_true_iff, rank, rank, Prod.Lex.toLex_le_toLex, closer, Bool.or_eq_true,
    Bool.and_eq_true, decide_eq_true_iff, beq_iff_eq, le_iff]

theorem suggestions_eq (name : Text) (candidates : List Text) (limit : ℤ) :
    suggestions name candidates limit = ((candidates.filter (Near name limit ·)).mergeSort
      fun c d => decide (rank name c ≤ rank name d)).take 3 := by
  have hnear : (candidates.map fun c => (distance name.lower c.lower, c)).filter
      (fun s => decide ((s.1 : ℤ) ≤ limit)) =
        (candidates.filter (Near name limit ·)).map fun c => (distance name.lower c.lower, c) :=
    List.filter_map
  rw [suggestions, hnear, ← List.map_mergeSort fun c _ d _ => (closer_eq name c d).symm, ← List.map_take,
    List.map_map]
  exact List.map_id _

/-- The first elements of a sorted list come before those that are left out. -/
theorem exists_left_out {α : Type} {le : α → α → Bool} (htrans : ∀ a b c, le a b → le b c → le a c)
    (htotal : ∀ a b, (le a b || le b a) = true) (k : ℕ) (l : List α) : ∃ rest,
      ((l.mergeSort le).take k ++ rest).Perm l ∧
      ((l.mergeSort le).take k).Pairwise (fun a b => le a b) ∧
      (∀ a ∈ (l.mergeSort le).take k, ∀ b ∈ rest, le a b) ∧
      (rest ≠ [] → ((l.mergeSort le).take k).length = k) := by
  have hsorted := List.pairwise_mergeSort htrans htotal l
  rw [← List.take_append_drop k (l.mergeSort le), List.pairwise_append] at hsorted
  refine ⟨(l.mergeSort le).drop k, ?_, hsorted.1, hsorted.2.2, fun hne => ?_⟩
  · rw [List.take_append_drop]
    exact List.mergeSort_perm l le
  · rw [Ne, List.drop_eq_nil_iff, not_le] at hne
    exact List.length_take_of_le hne.le

/-- What is suggested of the candidates that are near, and the others. -/
theorem exists_not_suggested (name : Text) (candidates : List Text) (limit : ℤ) : ∃ rest,
    (suggestions name candidates limit ++ rest).Perm (candidates.filter (Near name limit ·)) ∧
    (suggestions name candidates limit).Pairwise (fun c d => rank name c ≤ rank name d) ∧
    (∀ c ∈ suggestions name candidates limit, ∀ d ∈ rest, rank name c ≤ rank name d) ∧
    (rest ≠ [] → (suggestions name candidates limit).length = 3) := by
  rw [suggestions_eq]
  obtain ⟨rest, hperm, hsorted, hrest, hlength⟩ :=
    @exists_left_out Text (fun c d => decide (rank name c ≤ rank name d))
      (fun a b c hab hbc => by simpa using (of_decide_eq_true hab).trans (of_decide_eq_true hbc))
      (fun a b => by simpa using le_total _ _) 3 (candidates.filter (Near name limit ·))
  refine ⟨rest, hperm, ?_, ?_, hlength⟩
  · simpa using hsorted
  · simpa using hrest

/-- The distance of two texts is the least number of insertions, deletions and replacements of code points
that turn one into the other, and so it is a metric.  Of the candidates that are no farther from a name
than the limit at most three are suggested, in the order of their distances and code points; the others
come behind all of these, and there are others only if there are three. -/
theorem suggestions_closest :
    (∀ s t, IsLeast {n | EditsIn n s t} (distance s t)) ∧
    (∀ s t, distance s t = distance t s) ∧
    (∀ s t, distance s t = 0 ↔ s = t) ∧
    (∀ s t u, distance s u ≤ distance s t + distance t u) ∧
    ∀ (name : Text) (candidates : List Text) (limit : ℤ),
      (suggestions name candidates limit).length ≤ 3 ∧
      (∀ c ∈ suggestions name candidates limit, Near name limit c) ∧
      (suggestions name candidates limit).Pairwise (fun c d => rank name c ≤ rank name d) ∧
      ∃ rest, (suggestions name candidates limit ++ rest).Perm
          (candidates.filter (Near name limit ·)) ∧
        (∀ c ∈ suggestions name candidates limit, ∀ d ∈ rest, rank name c ≤ rank name d) ∧
        (rest ≠ [] → (suggestions name candidates limit).length = 3) := by
  refine ⟨isLeast_distance_editsIn, distance_comm, fun _ _ => distance_eq_zero_iff, distance_triangle,
    fun name candidates limit => ?_⟩
  obtain ⟨rest, hperm, hsorted, hrest, hlength⟩ := exists_not_suggested name candidates limit
  refine ⟨?_, fun c hc => ?_, hsorted, rest, hperm, hrest, hlength⟩
  · rw [suggestions_eq]
    exact List.length_take_le 3 _
  · have hnear := hperm.mem_iff.1 (List.mem_append_left rest hc)
    exact of_decide_eq_true (List.mem_filter.1 hnear).2

end WorkflowLint.Text
