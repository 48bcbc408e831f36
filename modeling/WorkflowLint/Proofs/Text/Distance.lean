import Mathlib.Data.List.Forall2
import Mathlib.Data.List.Infix
import Mathlib.Data.List.Lex
import Mathlib.Data.Prod.Lex
import Mathlib.Order.Bounds.Basic
import WorkflowLint.Text.Distance

/-!
# The distance of texts

The distance of two texts is the least number of code points that have to be inserted, deleted or
replaced to turn one into the other, over all ways to do so (`isLeast_distance`).

The number of edits is counted along alignments.  An alignment goes through both texts from left to right,
so that its cost follows from those of shorter texts (`isCost_concat_concat`), and this is what the rows
of the computation are made of (`forall₂_distanceRow`).  Edits at whatever places and in whatever order
do not need fewer steps than some alignment, since an edit in front of an alignment can be made a part of
it (`Aligned.of_edit`).
-/

namespace WorkflowLint.Text

variable {s t u s' t' : Text} {c d : CodePoint} {n m : ℕ}

/-! ## Edits -/

/-- One code point is inserted, deleted or replaced. -/
inductive Edit : Text → Text → Prop where
  | insert (before after : Text) (c : CodePoint) : Edit (before ++ after) (before ++ c :: after)
  | delete (before after : Text) (c : CodePoint) : Edit (before ++ c :: after) (before ++ after)
  | replace (before after : Text) (c d : CodePoint) : Edit (before ++ c :: after) (before ++ d :: after)

/-- A text is turned into another one by so many edits. -/
inductive EditsIn : ℕ → Text → Text → Prop where
  | refl (t : Text) : EditsIn 0 t t
  | step {n : ℕ} {s t u : Text} : Edit s t → EditsIn n t u → EditsIn (n + 1) s u

theorem Edit.symm (h : Edit s t) : Edit t s := by
  cases h with
  | insert before after c => exact .delete before after c
  | delete before after c => exact .insert before after c
  | replace before after c d => exact .replace before after d c

theorem Edit.append (h : Edit s t) (u : Text) : Edit (s ++ u) (t ++ u) := by
  cases h with
  | insert before after c =>
    simp only [List.append_assoc, List.cons_append]
    exact .insert before (after ++ u) c
  | delete before after c =>
    simp only [List.append_assoc, List.cons_append]
    exact .delete before (after ++ u) c
  | replace before after c d =>
    simp only [List.append_assoc, List.cons_append]
    exact .replace before (after ++ u) c d

namespace EditsIn

theorem one (h : Edit s t) : EditsIn 1 s t := .step h (.refl t)

theorem trans (h : EditsIn n s t) (h' : EditsIn m t u) : EditsIn (n + m) s u := by
  induction h with
  | refl t => rwa [Nat.zero_add]
  | step hedit _ ih =>
    rw [Nat.succ_add]
    exact .step hedit (ih h')

theorem symm (h : EditsIn n s t) : EditsIn n t s := by
  induction h with
  | refl t => exact .refl t
  | step hedit _ ih => exact ih.trans (one hedit.symm)

theorem append (h : EditsIn n s t) (u : Text) : EditsIn n (s ++ u) (t ++ u) := by
  induction h with
  | refl t => exact .refl (t ++ u)
  | step hedit _ ih => exact .step (hedit.append u) ih

theorem eq_of_zero (h : EditsIn 0 s t) : s = t := by
  cases h with
  | refl => rfl

end EditsIn

/-! ## Alignments -/

/-- Two texts are gone through from left to right, with so many code points that one of them lacks or that
differ. -/
inductive Aligned : ℕ → Text → Text → Prop where
  | nil : Aligned 0 [] []
  | keep {n : ℕ} {s t : Text} (c : CodePoint) : Aligned n s t → Aligned n (s ++ [c]) (t ++ [c])
  | replace {n : ℕ} {s t : Text} (c d : CodePoint) :
    Aligned n s t → Aligned (n + 1) (s ++ [c]) (t ++ [d])
  | delete {n : ℕ} {s t : Text} (c : CodePoint) : Aligned n s t → Aligned (n + 1) (s ++ [c]) t
  | insert {n : ℕ} {s t : Text} (d : CodePoint) : Aligned n s t → Aligned (n + 1) s (t ++ [d])

namespace Aligned

theorem refl (t : Text) : Aligned 0 t t := by
  induction t using List.reverseRecOn with
  | nil => exact .nil
  | append_singleton t c ih => exact .keep c ih

theorem symm (h : Aligned n s t) : Aligned n t s := by
  induction h with
  | nil => exact .nil
  | keep c _ ih => exact .keep c ih
  | replace c d _ ih => exact .replace d c ih
  | delete c _ ih => exact .insert c ih
  | insert d _ ih => exact .delete d ih

theorem append (h : Aligned n s t) (h' : Aligned m s' t') : Aligned (n + m) (s ++ s') (t ++ t') := by
  induction h' with
  | nil => simpa using h
  | keep c _ ih => simpa using ih.keep c
  | replace c d _ ih => simpa [Nat.add_assoc] using ih.replace c d
  | delete c _ ih => simpa [Nat.add_assoc] using ih.delete c
  | insert d _ ih => simpa [Nat.add_assoc] using ih.insert d

/-- A text can be made longer by each code point that it lacks. -/
theorem of_nil (t : Text) : Aligned t.length [] t := by
  induction t using List.reverseRecOn with
  | nil => exact .nil
  | append_singleton t c ih =>
    rw [List.length_append]
    exact .insert c ih

theorem length_le (h : Aligned n s t) : t.length ≤ n + s.length := by
  induction h with
  | nil => exact Nat.le_refl 0
  | keep | replace | delete | insert => simp only [List.length_append, List.length_singleton]; omega

/-- What a text is aligned with has a part for its last code point. -/
theorem exists_concat (h : Aligned n (s ++ [c]) t) : ∃ n₁ n₂ t₁ t₂, n₁ + n₂ = n ∧ t₁ ++ t₂ = t ∧
    Aligned n₁ s t₁ ∧ Aligned n₂ [c] t₂ := by
  generalize hr : s ++ [c] = r at h
  induction h with
  | nil => exact absurd hr (List.append_ne_nil_of_right_ne_nil s (List.cons_ne_nil c []))
  | keep c' h =>
    obtain ⟨rfl, hc⟩ := List.append_inj' hr rfl
    obtain rfl := List.singleton_inj.1 hc
    exact ⟨_, 0, _, [c], rfl, rfl, h, .refl [c]⟩
  | replace c' d h =>
    obtain ⟨rfl, hc⟩ := List.append_inj' hr rfl
    exact ⟨_, 1, _, [d], rfl, rfl, h, .replace c d .nil⟩
  | delete c' h =>
    obtain ⟨rfl, hc⟩ := List.append_inj' hr rfl
    exact ⟨_, 1, _, [], rfl, List.append_nil _, h, .delete c .nil⟩
  | insert d h ih =>
    obtain ⟨n₁, n₂, t₁, t₂, rfl, rfl, h₁, h₂⟩ := ih hr
    exact ⟨n₁, n₂ + 1, t₁, t₂ ++ [d], rfl, (List.append_assoc ..).symm, h₁, h₂.insert d⟩

/-- What a text is aligned with has a part for each part of it. -/
theorem exists_append (h : Aligned n (s ++ s') t) : ∃ n₁ n₂ t₁ t₂, n₁ + n₂ = n ∧ t₁ ++ t₂ = t ∧
    Aligned n₁ s t₁ ∧ Aligned n₂ s' t₂ := by
  induction s' using List.reverseRecOn generalizing n t with
  | nil =>
    rw [List.append_nil] at h
    exact ⟨n, 0, t, [], rfl, List.append_nil t, h, .nil⟩
  | append_singleton s' c ih =>
    rw [← List.append_assoc] at h
    obtain ⟨n₁, n₂, t₁, t₂, rfl, rfl, h₁, hlast⟩ := h.exists_concat
    obtain ⟨m₁, m₂, u₁, u₂, rfl, rfl, hs, hs'⟩ := ih h₁
    exact ⟨m₁, m₂ + n₂, u₁, u₂ ++ t₂, (Nat.add_assoc ..).symm, (List.append_assoc ..).symm, hs,
      hs'.append hlast⟩

/-- An alignment of two texts that end in a code point ends in one of four ways. -/
theorem cases_concat (h : Aligned n (s ++ [c]) (t ++ [d])) : (c = d ∧ Aligned n s t) ∨
    ∃ m, n = m + 1 ∧ (Aligned m s t ∨ Aligned m s (t ++ [d]) ∨ Aligned m (s ++ [c]) t) := by
  generalize hs : s ++ [c] = s', ht : t ++ [d] = t' at h
  cases h with
  | nil => exact absurd hs (List.append_ne_nil_of_right_ne_nil s (List.cons_ne_nil c []))
  | keep c' h =>
    obtain ⟨rfl, hc⟩ := List.append_inj' hs rfl
    obtain ⟨rfl, hd⟩ := List.append_inj' ht rfl
    exact .inl ⟨(List.singleton_inj.1 hc).trans (List.singleton_inj.1 hd).symm, h⟩
  | replace c' d' h =>
    obtain ⟨rfl, -⟩ := List.append_inj' hs rfl
    obtain ⟨rfl, -⟩ := List.append_inj' ht rfl
    exact .inr ⟨_, rfl, .inl h⟩
  | delete c' h =>
    obtain ⟨rfl, -⟩ := List.append_inj' hs rfl
    exact .inr ⟨_, rfl, .inr (.inl (ht ▸ h))⟩
  | insert d' h =>
    obtain ⟨rfl, -⟩ := List.append_inj' ht rfl
    exact .inr ⟨_, rfl, .inr (.inr (hs ▸ h))⟩

/-! ### Alignments and edits -/

/-- Along an alignment a text is turned into the other one. -/
theorem editsIn (h : Aligned n s t) : EditsIn n s t := by
  induction h with
  | nil => exact .refl []
  | keep c _ ih => exact ih.append [c]
  | replace c d _ ih => exact (ih.append [c]).trans (.one (.replace _ [] c d))
  | @delete _ s _ c _ ih =>
    have hedit : Edit (s ++ [c]) s := by simpa using Edit.delete s [] c
    exact .step hedit ih
  | @insert _ _ t d _ ih =>
    have hedit : Edit t (t ++ [d]) := by simpa using Edit.insert t [] d
    exact ih.trans (.one hedit)

/-- Another code point is aligned with as much as one was, at the cost of one more. -/
theorem exists_singleton (c : CodePoint) (h : Aligned n [d] t) : ∃ m ≤ n + 1, Aligned m [c] t := by
  have hlength : t.length ≤ n + 1 := h.length_le
  cases t with
  | nil => exact ⟨1, Nat.le_add_left 1 n, .delete c .nil⟩
  | cons e t => exact ⟨1 + t.length, by simpa [Nat.add_comm] using hlength,
      (Aligned.replace c e .nil).append (.of_nil t)⟩

/-- In the middle of a text one code point can be exchanged for what is aligned as well, at the cost of
one more. -/
theorem exists_middle {before after middle : Text} (h : Aligned n (before ++ c :: after) u)
    (hmiddle : ∀ k t, Aligned k [c] t → ∃ m ≤ k + 1, Aligned m middle t) :
    ∃ m ≤ n + 1, Aligned m (before ++ (middle ++ after)) u := by
  obtain ⟨n₁, _, u₁, _, rfl, rfl, h₁, hrest⟩ := h.exists_append
  rw [← List.singleton_append] at hrest
  obtain ⟨n₂, n₃, u₂, u₃, rfl, rfl, h₂, h₃⟩ := hrest.exists_append
  obtain ⟨m, hm, hchanged⟩ := hmiddle n₂ u₂ h₂
  exact ⟨n₁ + (m + n₃), by omega, h₁.append (hchanged.append h₃)⟩

/-- An edit in front of an alignment is made a part of it. -/
theorem of_edit (hedit : Edit s t) (h : Aligned n t u) : ∃ m ≤ n + 1, Aligned m s u := by
  cases hedit with
  | insert before after c => exact h.exists_middle fun k t ht => ⟨t.length, ht.length_le, .of_nil t⟩
  | delete before after c =>
    obtain ⟨n₁, n₂, u₁, u₂, rfl, rfl, h₁, h₂⟩ := h.exists_append
    exact ⟨n₁ + (1 + n₂), by omega, h₁.append ((Aligned.delete c .nil).append h₂)⟩
  | replace before after c d => exact h.exists_middle fun _ _ => exists_singleton c

/-- No edits need fewer steps than all alignments. -/
theorem exists_of_editsIn (h : EditsIn n s t) : ∃ m ≤ n, Aligned m s t := by
  induction h with
  | refl t => exact ⟨0, Nat.le_refl 0, .refl t⟩
  | step hedit _ ih =>
    obtain ⟨m, hm, halign⟩ := ih
    obtain ⟨k, hk, halign⟩ := of_edit hedit halign
    exact ⟨k, hk.trans (Nat.succ_le_succ hm), halign⟩

end Aligned

/-! ## Costs -/

/-- The least cost of aligning two texts. -/
def IsCost (s t : Text) (n : ℕ) : Prop := IsLeast {n | Aligned n s t} n

namespace IsCost

theorem symm (h : IsCost s t n) : IsCost t s n :=
  ⟨h.1.symm, fun _ hm => h.2 hm.symm⟩

theorem nil_left (t : Text) : IsCost [] t t.length :=
  ⟨.of_nil t, fun _ hm => hm.length_le⟩

/-- The cost of two texts follows from those of texts that are shorter. -/
theorem concat_concat {diagonal up left : ℕ} (hdiagonal : IsCost s t diagonal)
    (hup : IsCost s (t ++ [d]) up) (hleft : IsCost (s ++ [c]) t left) : IsCost (s ++ [c]) (t ++ [d])
      (min (min (up + 1) (left + 1)) (diagonal + if c = d then 0 else 1)) := by
  constructor
  · refine min_rec' _ (min_rec' _ (hup.1.delete c) (hleft.1.insert d)) ?_
    split
    · next heq => exact heq ▸ hdiagonal.1.keep c
    · exact hdiagonal.1.replace c d
  · intro n hn
    obtain ⟨rfl, h⟩ | ⟨m, rfl, h | h | h⟩ := hn.cases_concat
    · have hle := hdiagonal.2 h
      rw [if_pos rfl]
      omega
    · have hle := hdiagonal.2 h
      split <;> omega
    · have hle := hup.2 h
      omega
    · have hle := hleft.2 h
      omega

/-- The least cost is the least number of edits. -/
theorem isLeast_editsIn (h : IsCost s t n) : IsLeast {n | EditsIn n s t} n := by
  refine ⟨h.1.editsIn, fun k hk => ?_⟩
  obtain ⟨m, hm, haligned⟩ := Aligned.exists_of_editsIn hk
  exact (h.2 haligned).trans hm

end IsCost

/-! ## Rows -/

/-- What is listed for the starts of a text begins with what is listed for the empty one. -/
theorem exists_cons_of_forall₂_inits {P : Text → ℕ → Prop} {row : List ℕ}
    (h : List.Forall₂ P t.inits row) : ∃ first rest, row = first :: rest ∧ P [] first := by
  cases t with
  | nil =>
    obtain ⟨first, rest, hfirst, -, rfl⟩ := List.forall₂_cons_left_iff.1 h
    exact ⟨first, rest, rfl, hfirst⟩
  | cons d t =>
    obtain ⟨first, rest, hfirst, -, rfl⟩ := List.forall₂_cons_left_iff.1 h
    exact ⟨first, rest, rfl, hfirst⟩

/-- What is listed for the starts of a text ends with what is listed for all of it. -/
theorem exists_getLast?_of_forall₂_inits {P : Text → ℕ → Prop} {row : List ℕ}
    (h : List.Forall₂ P t.inits row) : ∃ last, row.getLast? = some last ∧ P t last := by
  induction t generalizing P row with
  | nil =>
    obtain ⟨first, rest, hfirst, hrest, rfl⟩ := List.forall₂_cons_left_iff.1 h
    obtain rfl := List.forall₂_nil_left_iff.1 hrest
    exact ⟨first, rfl, hfirst⟩
  | cons d t ih =>
    rw [List.inits_cons] at h
    obtain ⟨first, rest, -, hrest, rfl⟩ := List.forall₂_cons_left_iff.1 h
    obtain ⟨last, hlast, hP⟩ := ih (List.forall₂_map_left_iff.1 hrest)
    exact ⟨last, by rw [List.getLast?_cons, hlast]; rfl, hP⟩

/-- From a row of costs the next one is computed; what is true of it is true from any start of the other
text on. -/
theorem forall₂_nextDistances {start : Text} {left : ℕ} {row : List ℕ}
    (hrow : List.Forall₂ (fun p n => IsCost s (start ++ p) n) t.inits row)
    (hleft : IsCost (s ++ [c]) start left) :
    List.Forall₂ (fun p n => IsCost (s ++ [c]) (start ++ p) n) t.inits
      (left :: nextDistances c left row t) := by
  induction t generalizing start left row with
  | nil =>
    have hnone : nextDistances c left row [] = [] := by simp [nextDistances]
    rw [hnone]
    exact .cons (by rwa [List.append_nil]) .nil
  | cons d t ih =>
    rw [List.inits_cons] at hrow ⊢
    obtain ⟨diagonal, rest, hdiagonal, hrest, rfl⟩ := List.forall₂_cons_left_iff.1 hrow
    rw [List.append_nil] at hdiagonal
    rw [List.forall₂_map_left_iff] at hrest
    obtain ⟨up, above, rfl, hup⟩ := exists_cons_of_forall₂_inits hrest
    have hbehind : List.Forall₂ (fun p n => IsCost s (start ++ [d] ++ p) n) t.inits (up :: above) := by
      simpa only [List.append_assoc, List.singleton_append] using hrest
    have hnext := ih hbehind (hdiagonal.concat_concat hup hleft)
    refine .cons (by rwa [List.append_nil]) ?_
    rw [List.forall₂_map_left_iff, nextDistances]
    simpa only [List.append_assoc, List.singleton_append] using hnext

/-- The row of a text has its costs of being aligned with each start of the other text. -/
theorem forall₂_distanceRow (s t : Text) : List.Forall₂ (IsCost s) t.inits (distanceRow s t) := by
  induction s using List.reverseRecOn with
  | nil =>
    have hrange : List.range (t.length + 1) = t.inits.map List.length := by
      refine List.ext_getElem (by simp) fun i hi _ => ?_
      rw [List.length_range] at hi
      simp only [List.getElem_range, List.getElem_map, List.getElem_inits, List.length_take]
      omega
    rw [distanceRow, List.foldl_nil, hrange, List.forall₂_map_right_iff, List.forall₂_same]
    exact fun p _ => .nil_left p
  | append_singleton s c ih =>
    obtain ⟨first, rest, hrow, hfirst⟩ := exists_cons_of_forall₂_inits ih
    have hleft : IsCost (s ++ [c]) [] (first + 1) := by
      obtain rfl := hfirst.unique (IsCost.nil_left s).symm
      have hcost := (IsCost.nil_left (s ++ [c])).symm
      rwa [List.length_append] at hcost
    have hnext : distanceRow (s ++ [c]) t =
        (first + 1) :: nextDistances c (first + 1) (distanceRow s t) t := by
      rw [distanceRow, List.foldl_append, ← distanceRow, hrow]
      rfl
    rw [hnext]
    exact @forall₂_nextDistances s t c [] _ _ ih hleft

/-! ## Distances -/

theorem isCost_distanceFrom (s t : Text) : IsCost s t (distanceFrom s t) := by
  rw [distanceFrom]
  split
  · next hempty =>
    obtain rfl := List.isEmpty_iff.1 hempty
    exact (IsCost.nil_left s).symm
  · obtain ⟨last, hlast, hcost⟩ := exists_getLast?_of_forall₂_inits (forall₂_distanceRow s t)
    rwa [hlast]

/-- The distance of two texts is the least number of edits that turn one into the other. -/
theorem isLeast_distance_editsIn (s t : Text) : IsLeast {n | EditsIn n s t} (distance s t) := by
  refine IsCost.isLeast_editsIn ?_
  rw [distance]
  split
  · exact (isCost_distanceFrom t s).symm
  · exact isCost_distanceFrom s t

example : distance "kitten" "sitting" = 3 := by decide +kernel

theorem distance_comm (s t : Text) : distance s t = distance t s :=
  le_antisymm ((isLeast_distance_editsIn s t).2 (isLeast_distance_editsIn t s).1.symm)
    ((isLeast_distance_editsIn t s).2 (isLeast_distance_editsIn s t).1.symm)

theorem distance_eq_zero_iff : distance s t = 0 ↔ s = t := by
  constructor
  · intro hzero
    have hedits := (isLeast_distance_editsIn s t).1
    rw [hzero] at hedits
    exact EditsIn.eq_of_zero hedits
  · rintro rfl
    exact Nat.le_zero.1 ((isLeast_distance_editsIn s s).2 (.refl s))

theorem distance_triangle (s t u : Text) : distance s u ≤ distance s t + distance t u :=
  (isLeast_distance_editsIn s u).2
    ((isLeast_distance_editsIn s t).1.trans (isLeast_distance_editsIn t u).1)

end WorkflowLint.Text
