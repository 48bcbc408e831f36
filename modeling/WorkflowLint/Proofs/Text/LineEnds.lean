import WorkflowLint.Text.Basic
import WorkflowLint.Text.Utf8

/-!
# Texts without carriage returns

A text that was read from a file has no carriage return (`normaliseLineEnds_noReturn`), and such a
text is read from a file as it is (`normaliseLineEnds_eq_self`).  What replacing makes of it has a
carriage return only if the new text has one.
-/

namespace WorkflowLint.Text

/-- A text without a carriage return. -/
def NoReturn (t : Text) : Prop := .char '\r' ∉ t

instance (t : Text) : Decidable (NoReturn t) := inferInstanceAs (Decidable (_ ∉ _))

variable {t s old new : Text} {c : CodePoint}

@[simp] theorem noReturn_nil : NoReturn [] := List.not_mem_nil

@[simp] theorem noReturn_cons : NoReturn (c :: t) ↔ c ≠ .char '\r' ∧ NoReturn t := by
  unfold NoReturn
  rw [List.mem_cons, not_or]
  exact ⟨fun h => ⟨Ne.symm h.1, h.2⟩, fun h => ⟨Ne.symm h.1, h.2⟩⟩

@[simp] theorem noReturn_append : NoReturn (s ++ t) ↔ NoReturn s ∧ NoReturn t := by
  unfold NoReturn
  rw [List.mem_append, not_or]

theorem NoReturn.sublist (h : NoReturn t) (hs : s.Sublist t) : NoReturn s := fun hr => h (hs.subset hr)

/-- The line ends of a text that was read are line feeds. -/
theorem normaliseLineEnds_noReturn (t : Text) : NoReturn t.normaliseLineEnds := by
  fun_induction normaliseLineEnds t with
  | case1 => exact noReturn_nil
  | case2 t ih => exact noReturn_cons.2 ⟨by decide, ih⟩
  | case3 t _ ih => exact noReturn_cons.2 ⟨by decide, ih⟩
  | case4 c t _ hc ih => exact noReturn_cons.2 ⟨hc, ih⟩

/-- A text without carriage returns has the line ends that it is read with. -/
theorem normaliseLineEnds_eq_self (h : NoReturn t) : t.normaliseLineEnds = t := by
  fun_induction normaliseLineEnds t with
  | case1 => rfl
  | case2 t ih => exact absurd (List.mem_cons_self) h
  | case3 t _ ih => exact absurd (List.mem_cons_self) h
  | case4 c t _ _ ih => rw [ih (noReturn_cons.1 h).2]

theorem mem_replaceFrom {skip : Nat} (h : c ∈ replaceFrom old new skip t) : c ∈ t ∨ c ∈ new := by
  fun_induction replaceFrom old new skip t with
  | case1 => exact .inl h
  | case2 skip d t ih => exact (ih h).imp_left (List.mem_cons_of_mem d)
  | case3 d t _ ih =>
    rcases List.mem_append.1 h with h | h
    · exact .inr h
    · exact (ih h).imp_left (List.mem_cons_of_mem d)
  | case4 d t _ ih =>
    rcases List.mem_cons.1 h with rfl | h
    · exact .inl List.mem_cons_self
    · exact (ih h).imp_left (List.mem_cons_of_mem d)

theorem mem_replaceAll (h : c ∈ t.replaceAll old new) : c ∈ t ∨ c ∈ new := by
  unfold replaceAll at h
  split at h
  · rcases List.mem_append.1 h with h | h
    · exact .inr h
    · obtain ⟨d, hd, hc⟩ := List.mem_flatMap.1 h
      rcases List.mem_cons.1 hc with rfl | hc
      · exact .inl hd
      · exact .inr hc
  · exact mem_replaceFrom h

theorem NoReturn.replaceAll (ht : NoReturn t) (hnew : NoReturn new) :
    NoReturn (t.replaceAll old new) :=
  fun h => (mem_replaceAll h).elim ht hnew

theorem noReturn_replicate {n : Nat} (hc : c ≠ .char '\r') : NoReturn (List.replicate n c) :=
  fun h => hc (List.eq_of_mem_replicate h).symm

/-! ## Finds -/

/-- What is found in a text is found at the start of some end of it. -/
theorem exists_suffix_of_mem_occurrencesFrom {α : Type} {find? : Text → Option (α × Nat)}
    {offset skip : Nat} {found : Nat × α} (h : found ∈ occurrencesFrom find? offset skip t) :
    ∃ s n, s <:+ t ∧ find? s = some (found.2, n) := by
  fun_induction occurrencesFrom find? offset skip t with
  | case1 => exact absurd h List.not_mem_nil
  | case2 offset skip c t ih =>
    obtain ⟨s, n, hs, hf⟩ := ih h
    exact ⟨s, n, hs.trans (List.suffix_cons _ _), hf⟩
  | case3 offset c t a n hfind ih =>
    rcases List.mem_cons.1 h with rfl | h
    · exact ⟨c :: t, n, List.suffix_refl _, hfind⟩
    · obtain ⟨s, n, hs, hf⟩ := ih h
      exact ⟨s, n, hs.trans (List.suffix_cons _ _), hf⟩
  | case4 offset c t hfind ih =>
    obtain ⟨s, n, hs, hf⟩ := ih h
    exact ⟨s, n, hs.trans (List.suffix_cons _ _), hf⟩

theorem exists_suffix_of_mem_occurrences {α : Type} {find? : Text → Option (α × Nat)}
    {found : Nat × α} (h : found ∈ t.occurrences find?) :
    ∃ s n, s <:+ t ∧ find? s = some (found.2, n) :=
  exists_suffix_of_mem_occurrencesFrom h

end WorkflowLint.Text
