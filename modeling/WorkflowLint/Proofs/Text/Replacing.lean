import Mathlib.Data.List.Infix
import WorkflowLint.Text.Basic

/-!
# Replacing again

Replacing all occurrences of a text leaves a text as it is exactly if the text does not occur in it
(`replaceAll_eq_self_iff`), so replacing again changes nothing exactly if nothing is left.  What has
been replaced can make a new occurrence together with what stands around it.

This module says when that happens if the new text starts with two braces.  What cannot overlap with
two braces occurs in the result only where it occurred before (`isPrefixOf_of_replace`).  So a text
between braces is gone once it has been replaced by another one (`not_isInfix_replace_braced`), and one
between quotes is left only where there were two pairs of quotes (`isInfix_of_replace_quoted`).
-/

namespace WorkflowLint.Text

variable {old new s t u : Text} {c : CodePoint}

/-! ## Starts of texts -/

theorem isPrefixOf_iff : List.isPrefixOf s t = true ↔ s <+: t := List.isPrefixOf_iff_prefix

theorem afterStart?_eq_some_iff : afterStart? s t = some u ↔ t = s ++ u := by
  unfold afterStart?
  constructor
  · intro h
    split at h
    · next hstart =>
      obtain ⟨u', rfl⟩ := isPrefixOf_iff.1 hstart
      rw [List.drop_left] at h
      rw [Option.some.inj h]
    · simp at h
  · rintro rfl
    rw [if_pos (isPrefixOf_iff.2 (List.prefix_append s u)), List.drop_left]

/-! ## Steps of replacing -/

theorem replaceFrom_skip (skip : Nat) (t : Text) :
    replaceFrom old new skip t = replaceFrom old new 0 (t.drop skip) := by
  induction t generalizing skip with
  | nil => cases skip <;> rfl
  | cons c t ih =>
    cases skip with
    | zero => rfl
    | succ skip => rw [replaceFrom, ih, List.drop_succ_cons]

theorem replaceAll_eq (h : old ≠ []) (t : Text) : t.replaceAll old new = replaceFrom old new 0 t := by
  rw [replaceAll, if_neg (by simpa using h)]

@[simp] theorem replaceFrom_nil (skip : Nat) : replaceFrom old new skip [] = [] := by cases skip <;> rfl

/-- An occurrence at the start is replaced. -/
theorem replaceFrom_append (h : old ≠ []) (t : Text) :
    replaceFrom old new 0 (old ++ t) = new ++ replaceFrom old new 0 t := by
  obtain ⟨c, old', rfl⟩ := List.exists_cons_of_ne_nil h
  have hocc : (c :: old').isPrefixOf (c :: (old' ++ t)) = true :=
    isPrefixOf_iff.2 (List.prefix_append (c :: old') t)
  rw [List.cons_append, replaceFrom, if_pos hocc, replaceFrom_skip]
  simp

/-- Where there is no occurrence at the start the first code point stays. -/
theorem replaceFrom_cons (h : ¬ old <+: c :: t) :
    replaceFrom old new 0 (c :: t) = c :: replaceFrom old new 0 t := by
  rw [replaceFrom, if_neg fun hocc => h (isPrefixOf_iff.1 hocc)]

/-- What has no occurrence that starts in it stays. -/
theorem replaceFrom_append_of_not (h : ∀ u, u <:+ s → u ≠ [] → ¬ old <+: u ++ t) :
    replaceFrom old new 0 (s ++ t) = s ++ replaceFrom old new 0 t := by
  induction s with
  | nil => rfl
  | cons c s ih =>
    have hstart : ¬ old <+: c :: (s ++ t) := h _ List.suffix_rfl (List.cons_ne_nil c s)
    rw [List.cons_append, replaceFrom_cons hstart,
      ih fun u hu => h u (hu.trans (List.suffix_cons c s)), List.cons_append]

/-! ## What replacing leaves as it is -/

theorem hasPart_iff_isInfix : hasPart t s = true ↔ s <:+: t := by
  induction t with
  | nil => rw [hasPart, List.isEmpty_iff, List.infix_nil]
  | cons c t ih => rw [hasPart, Bool.or_eq_true, isPrefixOf_iff, ih, List.infix_cons_iff]

theorem not_isInfix_of_cons (h : ¬ s <:+: c :: t) : ¬ s <+: c :: t ∧ ¬ s <:+: t :=
  ⟨fun hp => h hp.isInfix, fun hi => h (List.infix_cons hi)⟩

theorem replaceFrom_eq_self (h : ¬ old <:+: t) : replaceFrom old new 0 t = t := by
  induction t with
  | nil => rfl
  | cons c t ih =>
    obtain ⟨hstart, hrest⟩ := not_isInfix_of_cons h
    rw [replaceFrom_cons hstart, ih hrest]

/-- Replacing a text by a shorter one makes no text longer, and one in which it occurs shorter. -/
theorem length_replaceFrom (hlt : new.length < old.length) (t : Text) :
    (replaceFrom old new 0 t).length ≤ t.length ∧
      (old <:+: t → (replaceFrom old new 0 t).length < t.length) := by
  have hne : old ≠ [] := List.ne_nil_of_length_pos (by omega)
  induction hn : t.length using Nat.strong_induction_on generalizing t with
  | _ n ih =>
    subst hn
    by_cases hstart : old <+: t
    · obtain ⟨t, rfl⟩ := hstart
      rw [replaceFrom_append hne]
      have hrest := (ih t.length (by simp only [List.length_append]; omega) t rfl).1
      simp only [List.length_append]
      exact ⟨by omega, fun _ => by omega⟩
    · cases t with
      | nil => exact ⟨Nat.le_refl _, fun hocc => absurd (List.infix_nil.1 hocc) hne⟩
      | cons c t =>
        obtain ⟨hle, hless⟩ := ih t.length (by simp) t rfl
        rw [replaceFrom_cons hstart]
        simp only [List.length_cons]
        refine ⟨by omega, fun hocc => ?_⟩
        have hlt := hless ((List.infix_cons_iff.1 hocc).resolve_left hstart)
        omega

/-- Replacing a text by a shorter one leaves exactly those texts as they are in which it does not
occur. -/
theorem replaceAll_eq_self_iff (hlt : new.length < old.length) :
    t.replaceAll old new = t ↔ ¬ old <:+: t := by
  rw [replaceAll_eq (List.ne_nil_of_length_pos (by omega))]
  constructor
  · intro h hocc
    have hlt' := (length_replaceFrom hlt t).2 hocc
    rw [h] at hlt'
    exact absurd hlt' (Nat.lt_irrefl _)
  · exact replaceFrom_eq_self

/-! ## Braces -/

/-- The brace of which two open a placeholder. -/
def brace : CodePoint := .char '\x7b'

/-- No part of a text from some place on can be what two braces start with, or start with them. -/
def Clear (t : Text) : Prop := ∀ u, u <:+ t → u ≠ [] → ∀ s s', u ++ s ≠ brace :: brace :: s'

theorem Clear.suffix (h : Clear t) (hs : s <:+ t) : Clear s := fun u hu => h u (hu.trans hs)

theorem Clear.cons (h : Clear t) (hc : ∀ s s', c :: (t ++ s) ≠ brace :: brace :: s') :
    Clear (c :: t) := by
  intro u hu hne
  rcases List.suffix_cons_iff.1 hu with rfl | hu
  · exact hc
  · exact h u hu hne

/-- A text without braces is clear. -/
theorem clear_of_not_mem (h : brace ∉ t) : Clear t := by
  intro u hu hne s s' heq
  obtain ⟨c, u, rfl⟩ := List.exists_cons_of_ne_nil hne
  obtain ⟨rfl, -⟩ := List.cons.inj heq
  exact h (hu.subset List.mem_cons_self)

/-- A single brace before a text without braces is no harm if the text is not empty. -/
theorem clear_brace_cons (h : brace ∉ t) (hne : t ≠ []) : Clear (brace :: t) := by
  refine (clear_of_not_mem h).cons fun s s' heq => ?_
  obtain ⟨d, t, rfl⟩ := List.exists_cons_of_ne_nil hne
  have hd : d = brace := (List.cons.inj (List.cons.inj heq).2).1
  exact h (by rw [hd]; exact List.mem_cons_self)

section Braced

variable {core core' : Text}

/-- What is clear starts the result only if it started the text. -/
theorem isPrefixOf_of_replace (hs : Clear s) (hold : old ≠ [])
    (h : s <+: replaceFrom old (brace :: brace :: core) 0 t) : s <+: t := by
  induction s generalizing t with
  | nil => exact List.nil_prefix
  | cons c s ih =>
    by_cases hstart : old <+: t
    · -- the result starts with two braces, and the text with neither of them
      obtain ⟨t, rfl⟩ := hstart
      rw [replaceFrom_append hold] at h
      obtain ⟨s', hs'⟩ := h
      exact absurd hs' (hs _ List.suffix_rfl (List.cons_ne_nil c s) s' _)
    · cases t with
      | nil => simp at h
      | cons d t =>
        rw [replaceFrom_cons hstart, List.cons_prefix_cons] at h
        exact List.cons_prefix_cons.2 ⟨h.1, ih (hs.suffix (List.suffix_cons c s)) h.2⟩

/-! ## Texts between braces -/

/-- Of two texts that end at the same code point, neither starts the other one. -/
theorem not_isPrefix_of_ne {stop : CodePoint} (hs : stop ∉ s) (ht : stop ∉ t) (hne : s ≠ t)
    (rest rest' : Text) : ¬ s ++ stop :: rest <+: t ++ stop :: rest' := by
  rintro ⟨u, hu⟩
  rw [List.append_assoc, List.cons_append] at hu
  obtain ⟨v, rfl, hv⟩ | ⟨v, rfl, hv⟩ := List.append_eq_append_iff.1 hu
  · cases v with
    | nil => exact hne (List.append_nil s).symm
    | cons c v =>
      obtain ⟨rfl, -⟩ := List.cons.inj hv
      exact ht (List.mem_append_right _ List.mem_cons_self)
  · cases v with
    | nil => exact hne (List.append_nil t)
    | cons c v =>
      obtain ⟨rfl, -⟩ := List.cons.inj hv
      exact hs (List.mem_append_right _ List.mem_cons_self)

/-- A text occurs in two that are joined only if it starts in the first or occurs in the second. -/
theorem not_isInfix_append (hs : ∀ u, u <:+ s → u ≠ [] → ¬ old <+: u ++ t) (ht : ¬ old <:+: t) :
    ¬ old <:+: s ++ t := by
  induction s with
  | nil => exact ht
  | cons c s ih =>
    rw [List.cons_append, List.infix_cons_iff, not_or]
    exact ⟨hs _ List.suffix_rfl (List.cons_ne_nil c s),
      ih fun u hu => hs u (hu.trans (List.suffix_cons c s))⟩

/-- A text after two braces is gone once it has been replaced by another one that the first does not
start. -/
theorem not_isInfix_replace_braced (hcore : brace ∉ core) (hne : core ≠ [])
    (hcore' : brace ∉ core') (hne' : core' ≠ []) (hdiff : ∀ s, ¬ core <+: core' ++ s) (t : Text) :
    ¬ brace :: brace :: core <:+:
      replaceFrom (brace :: brace :: core) (brace :: brace :: core') 0 t := by
  induction hn : t.length using Nat.strong_induction_on generalizing t with
  | _ n ih =>
    subst hn
    by_cases hstart : brace :: brace :: core <+: t
    · obtain ⟨t, rfl⟩ := hstart
      rw [replaceFrom_append (List.cons_ne_nil _ _)]
      refine not_isInfix_append (fun u hu hune => ?_)
        (ih t.length (by simp only [List.length_append, List.length_cons]; omega) t rfl)
      rcases List.suffix_cons_iff.1 hu with rfl | hu
      · rw [List.cons_append, List.cons_append, List.cons_prefix_cons, List.cons_prefix_cons]
        exact fun h => hdiff _ h.2.2
      · -- what remains of the new text has no two braces to start with
        rintro ⟨s', hs'⟩
        exact clear_brace_cons hcore' hne' u hu hune _ _ hs'.symm
    · cases t with
      | nil => simp
      | cons c t =>
        rw [replaceFrom_cons hstart, List.infix_cons_iff, not_or]
        refine ⟨fun h => hstart ?_, ih t.length (by simp) t rfl⟩
        rw [List.cons_prefix_cons] at h ⊢
        exact ⟨h.1, isPrefixOf_of_replace (clear_brace_cons hcore hne) (List.cons_ne_nil _ _) h.2⟩

end Braced

/-! ## Texts between quotes -/

section Quoted

variable {quote core : Text}

/-- What has no brace starts the result only before the result of the rest. -/
theorem exists_append_of_replace (hs : brace ∉ s) (hold : old ≠ [])
    (h : s <+: replaceFrom old (brace :: core) 0 t) :
    ∃ t', t = s ++ t' ∧ replaceFrom old (brace :: core) 0 t =
      s ++ replaceFrom old (brace :: core) 0 t' := by
  induction s generalizing t with
  | nil => exact ⟨t, rfl, rfl⟩
  | cons c s ih =>
    obtain ⟨hc, hs⟩ := not_or.1 (fun hmem => hs (List.mem_cons.2 hmem))
    by_cases hstart : old <+: t
    · obtain ⟨t, rfl⟩ := hstart
      rw [replaceFrom_append hold, List.cons_append, List.cons_prefix_cons] at h
      exact absurd h.1.symm hc
    · cases t with
      | nil => simp at h
      | cons d t =>
        rw [replaceFrom_cons hstart, List.cons_prefix_cons] at h
        obtain ⟨rfl, h⟩ := h
        obtain ⟨t', rfl, heq⟩ := ih hs h
        exact ⟨t', rfl, by rw [replaceFrom_cons hstart, heq, List.cons_append]⟩

/-- An occurrence between quotes that starts the result but not the text had two pairs of quotes. -/
theorem isPrefixOf_of_replace_quoted (hcore : brace ∉ core) (hne : core ≠ []) (hquote : brace ∉ quote)
    (hstart : ¬ quote ++ (brace :: brace :: core) ++ quote <+: t)
    (h : quote ++ (brace :: brace :: core) ++ quote <+:
      replaceFrom (quote ++ (brace :: brace :: core) ++ quote) (brace :: brace :: core) 0 t) :
    quote ++ (quote ++ (brace :: brace :: core) ++ quote) ++ quote <+: t := by
  have hold : quote ++ (brace :: brace :: core) ++ quote ≠ [] := by simp
  generalize hold' : quote ++ (brace :: brace :: core) ++ quote = old at h hstart hold ⊢
  have hbraced : old = quote ++ ((brace :: brace :: core) ++ quote) := by
    rw [← hold', List.append_assoc]
  have hstarts : quote <+: old := ⟨_, hbraced.symm⟩
  obtain ⟨t', rfl, heq⟩ := exists_append_of_replace hquote hold (hstarts.trans h)
  rw [heq, hbraced, List.prefix_append_right_inj, ← hbraced] at h
  by_cases hinner : old <+: t'
  · -- the braces of the result are those of an occurrence that was replaced
    obtain ⟨rest, rfl⟩ := hinner
    rw [replaceFrom_append hold, List.prefix_append_right_inj] at h
    obtain ⟨rest, rfl⟩ := isPrefixOf_of_replace (clear_of_not_mem hquote) hold h
    exact ⟨rest, by simp only [List.append_assoc]⟩
  · cases t' with
    | nil => simp at h
    | cons d rest =>
      rw [replaceFrom_cons hinner, List.cons_append, List.cons_prefix_cons] at h
      have hclear : Clear (brace :: (core ++ quote)) :=
        clear_brace_cons (by simp [hcore, hquote]) (by simp [hne])
      have hrest : brace :: (core ++ quote) <+: rest := isPrefixOf_of_replace hclear hold h.2
      refine absurd ?_ hstart
      rw [hbraced, List.prefix_append_right_inj, ← h.1]
      exact List.cons_prefix_cons.2 ⟨rfl, hrest⟩

/-- If the quotes around a text between braces are dropped, a quoted occurrence is left only where
there was one with two pairs of quotes. -/
theorem isInfix_of_replace_quoted (hquote : quote ≠ []) (hcore : brace ∉ core) (hne : core ≠ [])
    (hdisjoint : ∀ c ∈ quote, c ∉ brace :: brace :: core)
    (h : quote ++ (brace :: brace :: core) ++ quote <:+:
      replaceFrom (quote ++ (brace :: brace :: core) ++ quote) (brace :: brace :: core) 0 t) :
    quote ++ (quote ++ (brace :: brace :: core) ++ quote) ++ quote <:+: t := by
  have hbrace : brace ∉ quote := fun hmem => hdisjoint _ hmem List.mem_cons_self
  have hold : quote ++ (brace :: brace :: core) ++ quote ≠ [] := by simp
  generalize hold' : quote ++ (brace :: brace :: core) ++ quote = old at h hold ⊢
  induction hn : t.length using Nat.strong_induction_on generalizing t with
  | _ n ih =>
    subst hn
    by_cases hstart : old <+: t
    · obtain ⟨t, rfl⟩ := hstart
      rw [replaceFrom_append hold] at h
      by_cases hrest : old <:+: replaceFrom old (brace :: brace :: core) 0 t
      · have hlt : t.length < (old ++ t).length := by
          have hpos := List.length_pos_of_ne_nil hold
          simp only [List.length_append]
          omega
        exact (ih t.length hlt hrest rfl).trans (List.suffix_append old t).isInfix
      · -- no occurrence starts in the braces, as these have no quotes
        refine absurd h (not_isInfix_append (fun u hu hune => ?_) hrest)
        obtain ⟨c, quote', rfl⟩ := List.exists_cons_of_ne_nil hquote
        obtain ⟨d, u, rfl⟩ := List.exists_cons_of_ne_nil hune
        rw [← hold', List.cons_append, List.cons_append, List.cons_append, List.cons_prefix_cons]
        rintro ⟨rfl, -⟩
        exact hdisjoint c List.mem_cons_self (hu.subset List.mem_cons_self)
    · cases t with
      | nil =>
        rw [replaceFrom_nil, List.infix_nil] at h
        exact absurd h hold
      | cons c t =>
        rw [replaceFrom_cons hstart, List.infix_cons_iff, ← replaceFrom_cons hstart] at h
        rcases h with h | h
        · rw [← hold'] at h ⊢
          rw [← hold'] at hstart
          exact (isPrefixOf_of_replace_quoted hcore hne hbrace hstart h).isInfix
        · exact List.infix_cons (ih t.length (by simp) h rfl)

end Quoted

end WorkflowLint.Text
