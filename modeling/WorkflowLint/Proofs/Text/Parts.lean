import Mathlib.Data.List.Basic
import WorkflowLint.Text.Basic

/-!
# The parts of a text between separators

The first part of a text ends at the first separator (`parts_append_cons`), and a text in front of another
one runs its last part into the first one of the other (`exists_parts_append`).  So texts without
separators that are joined by one are the parts again (`parts_join`), and the parts of a text have no
separators in them (`sep_not_mem_of_mem_parts`).
-/

namespace WorkflowLint.Text

variable {sep c : CodePoint} {s t p : Text} {ps : List Text}

/-! ## Cutting -/

theorem parts_ne_nil (sep : CodePoint) (t : Text) : t.parts sep ≠ [] := by
  cases t with
  | nil => simp [parts]
  | cons c t =>
    rw [parts]
    split
    · simp
    · split <;> simp

theorem exists_parts_eq_cons (sep : CodePoint) (t : Text) : ∃ p ps, t.parts sep = p :: ps :=
  List.exists_cons_of_ne_nil (parts_ne_nil sep t)

theorem parts_cons_self (sep : CodePoint) (t : Text) : parts sep (sep :: t) = [] :: t.parts sep := by
  obtain ⟨p, ps, h⟩ := exists_parts_eq_cons sep t
  simp only [parts, h, if_true]

theorem parts_cons_of_ne (hc : c ≠ sep) (h : t.parts sep = p :: ps) :
    parts sep (c :: t) = (c :: p) :: ps := by
  simp only [parts, h, if_neg hc]

/-- A text without separators runs into the first part of what follows it. -/
theorem parts_append_of_not_mem (hs : sep ∉ s) (h : t.parts sep = p :: ps) :
    parts sep (s ++ t) = (s ++ p) :: ps := by
  induction s with
  | nil => exact h
  | cons c s ih =>
    rw [List.mem_cons, not_or] at hs
    exact parts_cons_of_ne (Ne.symm hs.1) (ih hs.2)

theorem parts_of_not_mem (h : sep ∉ s) : s.parts sep = [s] := by
  have hparts : parts sep (s ++ []) = [s ++ []] := parts_append_of_not_mem h rfl
  rwa [List.append_nil] at hparts

/-- A text in front of a separator is the first part, if it has no separator itself. -/
theorem parts_append_cons (h : sep ∉ s) (t : Text) : parts sep (s ++ sep :: t) = s :: t.parts sep := by
  rw [parts_append_of_not_mem h (parts_cons_self sep t), List.append_nil]

/-- A text has a last part that runs into what follows it, after one part for each separator in it. -/
theorem exists_parts_append (sep : CodePoint) (s : Text) :
    ∃ before left, before.length = s.count sep ∧ s = before.flatMap (fun p => p ++ [sep]) ++ left ∧
      ∀ t p ps, t.parts sep = p :: ps → parts sep (s ++ t) = before ++ (left ++ p) :: ps := by
  induction s with
  | nil => exact ⟨[], [], rfl, rfl, fun _ _ _ ht => ht⟩
  | cons c s ih =>
    obtain ⟨before, left, hcount, hs, happend⟩ := ih
    by_cases hc : c = sep
    · subst hc
      refine ⟨[] :: before, left, ?_, congrArg (c :: ·) hs, fun t p ps ht => ?_⟩
      · rw [List.length_cons, hcount, List.count_cons_self]
      · rw [List.cons_append, parts_cons_self, happend t p ps ht, List.cons_append]
    · rw [← List.count_cons_of_ne hc] at hcount
      cases before with
      | nil =>
        exact ⟨[], c :: left, hcount, congrArg (c :: ·) hs,
          fun t p ps ht => parts_cons_of_ne hc (happend t p ps ht)⟩
      | cons first before =>
        exact ⟨(c :: first) :: before, left, hcount, congrArg (c :: ·) hs,
          fun t p ps ht => parts_cons_of_ne hc (happend t p ps ht)⟩

/-- A separator between two texts keeps their parts apart. -/
theorem parts_append_sep (sep : CodePoint) (s t : Text) :
    parts sep (s ++ sep :: t) = s.parts sep ++ t.parts sep := by
  obtain ⟨before, left, -, -, happend⟩ := exists_parts_append sep s
  have hs : s.parts sep = before ++ [left ++ []] := by
    rw [← happend [] [] [] rfl, List.append_nil]
  rw [happend (sep :: t) [] (t.parts sep) (parts_cons_self sep t), hs, List.append_assoc,
    List.singleton_append]

/-! ## Joining -/

theorem join_cons_cons (sep p q : Text) (ps : List Text) :
    join sep (p :: q :: ps) = p ++ sep ++ join sep (q :: ps) := rfl

theorem not_mem_join_iff {sep : Text} (h : c ∉ sep) (ps : List Text) :
    c ∉ join sep ps ↔ ∀ p ∈ ps, c ∉ p := by
  induction ps with
  | nil => simp [join]
  | cons p ps ih =>
    cases ps with
    | nil => simp [join]
    | cons q ps =>
      rw [join_cons_cons, List.forall_mem_cons, ← ih]
      simp [h]

/-- Texts that are joined by a separator which none of them holds are the parts again. -/
theorem parts_join (h : ∀ q ∈ p :: ps, sep ∉ q) : (join [sep] (p :: ps)).parts sep = p :: ps := by
  induction ps generalizing p with
  | nil => exact parts_of_not_mem (h p (by simp))
  | cons q ps ih =>
    rw [join_cons_cons, List.append_assoc, List.singleton_append, parts_append_cons (h p (by simp)),
      ih fun q' hq => h q' (List.mem_cons_of_mem _ hq)]

theorem sep_not_mem_of_mem_parts (h : p ∈ t.parts sep) : sep ∉ p := by
  induction t generalizing p with
  | nil => simp_all [parts]
  | cons c t ih =>
    obtain ⟨q, qs, hq⟩ := exists_parts_eq_cons sep t
    by_cases hc : c = sep
    · subst hc
      rw [parts_cons_self] at h
      rcases List.mem_cons.1 h with rfl | h
      · simp
      · exact ih h
    · rw [parts_cons_of_ne hc hq] at h
      rcases List.mem_cons.1 h with rfl | h
      · rw [List.mem_cons, not_or]
        exact ⟨Ne.symm hc, ih (by rw [hq]; exact List.mem_cons_self ..)⟩
      · exact ih (by rw [hq]; exact List.mem_cons_of_mem _ h)

theorem mem_of_mem_parts (h : p ∈ t.parts sep) (hc : c ∈ p) : c ∈ t := by
  induction t generalizing p with
  | nil => simp_all [parts]
  | cons d t ih =>
    have hrest : ∀ r ∈ parts sep t, c ∈ r → c ∈ d :: t := fun r hr hcr =>
      List.mem_cons_of_mem _ (ih hr hcr)
    obtain ⟨q, qs, hq⟩ := exists_parts_eq_cons sep t
    rw [hq] at hrest
    by_cases hd : d = sep
    · subst hd
      rw [parts_cons_self, hq] at h
      rcases List.mem_cons.1 h with rfl | h
      · exact nomatch hc
      · exact hrest p h hc
    · rw [parts_cons_of_ne hd hq] at h
      rcases List.mem_cons.1 h with rfl | h
      · exact (List.mem_cons.1 hc).elim (fun heq => heq ▸ List.mem_cons_self ..)
          (hrest q (List.mem_cons_self ..))
      · exact hrest p (List.mem_cons_of_mem _ h) hc

end WorkflowLint.Text
