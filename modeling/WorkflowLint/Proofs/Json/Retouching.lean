import Mathlib.Logic.Relation
import WorkflowLint.Proofs.Json.Alike
import WorkflowLint.Proofs.Json.String
import WorkflowLint.Proofs.Json.Written
import WorkflowLint.Proofs.Text.Replacing

/-!
# Replacing in the strings of a document

A retouch replaces a text wherever it stands in a file, without reading the file (`Retouch`).  Between
strings there is no place for what it looks for, since no value and no blank starts so.  Inside a string
its escapes are whole: a backslash with which it starts could only be escaped by another one if the quote
behind it ended the string, and no brace follows a string (`Retouch.readStringFrom_run`).

So the parts of a document are read after replacing as they were before, with some occurrences replaced
in their strings and names (`Retouch.reads_run`), by induction on the grammar, and a document stays one
(`Retouch.written_run`).
-/

namespace WorkflowLint.Json

open Text

variable {raw raw' s s' t u rest start : Text} {c : CodePoint}

/-! ## Retouches -/

/-- A text that is replaced wherever it stands in a document, but stands inside strings only: it starts
so that a value or a blank does not, and both texts spell a part of a string. -/
structure Retouch where
  old : Text
  new : Text
  was : Text
  now : Text
  opens : (∃ t, old = brace :: brace :: t) ∨ (∃ t, old = .char '\\' :: .char '"' :: brace :: t) ∨
    ∃ t, old = .char '\'' :: t
  braced : ∃ t, new = brace :: brace :: t
  spells_old : Spells old was
  spells_new : Spells new now

namespace Retouch

variable (r : Retouch)

/-- Replaces the text. -/
def run (t : Text) : Text := replaceFrom r.old r.new 0 t

/-- A string with one occurrence replaced. -/
def Step (s s' : Text) : Prop :=
  ∃ before after, s = before ++ r.was ++ after ∧ s' = before ++ r.now ++ after

/-- A string with some occurrences replaced, one after the other. -/
def Steps : Text → Text → Prop := Relation.ReflTransGen r.Step

variable {r}

theorem Steps.append (h : r.Steps s s') (t : Text) : r.Steps (t ++ s) (t ++ s') := by
  refine h.lift (t ++ ·) ?_
  rintro _ _ ⟨before, after, rfl, rfl⟩
  exact ⟨t ++ before, after, by simp, by simp⟩

theorem Steps.replaced (h : r.Steps s s') : r.Steps (r.was ++ s) (r.now ++ s') :=
  .head ⟨[], s, rfl, rfl⟩ (h.append r.now)

/-! ### Where nothing is replaced -/

/-- The code points with which an old text can start. -/
def IsMark (c : CodePoint) : Prop := c = brace ∨ c = .char '\\' ∨ c = .char '\''

instance : DecidablePred IsMark := fun _ => inferInstanceAs (Decidable (_ ∨ _))

theorem old_ne_nil : r.old ≠ [] := by
  obtain ⟨t, h⟩ | ⟨t, h⟩ | ⟨t, h⟩ := r.opens <;> rw [h] <;> exact List.cons_ne_nil _ _

theorem isMark_of_isPrefix (h : r.old <+: c :: t) : IsMark c := by
  obtain ⟨t', ht⟩ | ⟨t', ht⟩ | ⟨t', ht⟩ := r.opens <;> rw [ht, List.cons_prefix_cons] at h
  · exact .inl h.1.symm
  · exact .inr (.inl h.1.symm)
  · exact .inr (.inr h.1.symm)

@[simp] theorem run_nil : r.run [] = [] := rfl

theorem run_old (t : Text) : r.run (r.old ++ t) = r.new ++ r.run t := replaceFrom_append r.old_ne_nil t

theorem run_cons_of_not_isPrefix (h : ¬ r.old <+: c :: t) : r.run (c :: t) = c :: r.run t :=
  replaceFrom_cons h

theorem run_cons (h : ¬ IsMark c) (t : Text) : r.run (c :: t) = c :: r.run t :=
  run_cons_of_not_isPrefix fun hold => h (isMark_of_isPrefix hold)

theorem run_append (h : ∀ c ∈ s, ¬ IsMark c) (t : Text) : r.run (s ++ t) = s ++ r.run t := by
  induction s with
  | nil => rfl
  | cons c s ih =>
    obtain ⟨hc, hs⟩ := List.forall_mem_cons.1 h
    rw [List.cons_append, run_cons hc, ih hs, List.cons_append]

/-- A single brace stays. -/
theorem run_brace_cons (h : t.head? ≠ some brace) : r.run (brace :: t) = brace :: r.run t := by
  refine run_cons_of_not_isPrefix fun hold => ?_
  obtain ⟨t', ht⟩ | ⟨t', ht⟩ | ⟨t', ht⟩ := r.opens <;> rw [ht, List.cons_prefix_cons] at hold
  · obtain ⟨t'', rfl⟩ := hold.2
    exact h rfl
  · exact absurd hold.1 (by decide)
  · exact absurd hold.1 (by decide)

/-- A backslash stays unless it escapes a quote before a brace. -/
theorem run_backslash_cons (h : ∀ t', t ≠ .char '"' :: brace :: t') :
    r.run (.char '\\' :: t) = .char '\\' :: r.run t := by
  refine run_cons_of_not_isPrefix fun hold => ?_
  obtain ⟨t', ht⟩ | ⟨t', ht⟩ | ⟨t', ht⟩ := r.opens <;> rw [ht, List.cons_prefix_cons] at hold
  · exact absurd hold.1 (by decide)
  · obtain ⟨t'', rfl⟩ := hold.2
    exact h _ rfl
  · exact absurd hold.1 (by decide)

/-- What does not start with a brace after replacing started so before. -/
theorem exists_of_run_eq_cons (hc : c ≠ brace) (h : r.run t = c :: u) :
    ∃ t', t = c :: t' ∧ r.run t' = u := by
  by_cases hold : r.old <+: t
  · obtain ⟨t', rfl⟩ := hold
    obtain ⟨new, hnew⟩ := r.braced
    rw [run_old, hnew, List.cons_append] at h
    exact absurd (List.cons.inj h).1.symm hc
  · cases t with
    | nil => exact absurd h.symm (List.cons_ne_nil c u)
    | cons d t =>
      rw [run_cons_of_not_isPrefix hold] at h
      obtain ⟨rfl, rfl⟩ := List.cons.inj h
      exact ⟨t, rfl, rfl⟩

theorem run_ne_nil (h : t ≠ []) : r.run t ≠ [] := by
  by_cases hold : r.old <+: t
  · obtain ⟨t', rfl⟩ := hold
    obtain ⟨new, hnew⟩ := r.braced
    rw [run_old, hnew]
    exact List.cons_ne_nil _ _
  · obtain ⟨c, t, rfl⟩ := List.exists_cons_of_ne_nil h
    rw [run_cons_of_not_isPrefix hold]
    exact List.cons_ne_nil _ _

/-! ### Strings -/

theorem hexUnit_eq_some {n : Nat} (h : hexUnit? t = some n) :
    ∃ ds u, t = ds ++ u ∧ ds.length = 4 ∧ u ≠ [] ∧ (∀ c ∈ ds, ¬ IsMark c) ∧
      ∀ u', u' ≠ [] → hexUnit? (ds ++ u') = some n := by
  have hdigit : ∀ c : CodePoint, (c.hexValue?).isSome = true → ¬ IsMark c := by
    rintro c hc (rfl | rfl | rfl) <;> exact absurd hc (by decide)
  match t, h with
  | a :: b :: c :: d :: e :: t, h =>
    have hsome := h
    simp only [hexUnit?, Option.bind_eq_bind, Option.bind_eq_some_iff] at hsome
    obtain ⟨va, ha, vb, hb, vc, hc, vd, hd, -⟩ := hsome
    refine ⟨[a, b, c, d], e :: t, rfl, rfl, List.cons_ne_nil e t, ?_, ?_⟩
    · intro x hx
      simp only [List.mem_cons, List.not_mem_nil, or_false] at hx
      obtain rfl | rfl | rfl | rfl := hx
      · exact hdigit _ (by rw [ha]; rfl)
      · exact hdigit _ (by rw [hb]; rfl)
      · exact hdigit _ (by rw [hc]; rfl)
      · exact hdigit _ (by rw [hd]; rfl)
    · intro u' hu'
      obtain ⟨e', u', rfl⟩ := List.exists_cons_of_ne_nil hu'
      exact h

/-- Four digits follow where an escape with digits is read in a string. -/
theorem exists_hexUnit_of_readStringFrom
    (h : readStringFrom start 0 (.char '\\' :: .char 'u' :: t) = .ok (s, rest)) :
    ∃ n, hexUnit? t = some n := by
  rw [readStringFrom, if_neg (by decide), if_pos rfl] at h
  simp only [if_true] at h
  unfold readUnicodeEscape at h
  simp only [List.drop_succ_cons, List.drop_zero] at h
  cases hhex : hexUnit? t with
  | none => simp [hhex] at h
  | some n => exact ⟨n, rfl⟩

section

variable {ds ds' : Text} (hlen : ds.length = 4) (hlen' : ds'.length = 4)
include hlen

theorem drop_digits (t : Text) : (ds ++ t).drop 4 = t := by rw [← hlen, List.drop_left]

theorem not_length_lt_five (ht : t ≠ []) : ¬ (ds ++ t).length < 5 := by
  have hpos := List.length_pos_of_ne_nil ht
  rw [List.length_append]
  omega

include hlen'

theorem drop_pair (t : Text) : (ds ++ .char '\\' :: .char 'u' :: (ds' ++ t)).drop 10 = t := by
  have hpair : (ds ++ .char '\\' :: .char 'u' :: ds').length = 10 := by simp [hlen, hlen']
  rw [← hpair]
  simp

end

/-- An escape with digits is read after replacing as it was before, if what follows it is read. -/
theorem readUnicodeEscape_run {n : Nat} (h : readUnicodeEscape (.char 'u' :: t) = .ok (c, n))
    (hrest : readStringFrom start 0 (t.drop n) = .ok (s, rest)) :
    readUnicodeEscape (.char 'u' :: r.run t) = .ok (c, n) ∧ (r.run t).drop n = r.run (t.drop n) := by
  unfold readUnicodeEscape at h
  simp only [List.drop_succ_cons, List.drop_zero] at h
  split at h
  · simp at h
  next k hk =>
  obtain ⟨ds, u, rfl, hlen, hne, hmarks, hhex⟩ := hexUnit_eq_some hk
  have hread := hhex (r.run u) (run_ne_nil hne)
  have hrun : r.run (ds ++ u) = ds ++ r.run u := run_append hmarks u
  rw [drop_digits hlen] at h
  unfold readUnicodeEscape
  simp only [List.drop_succ_cons, List.drop_zero, hrun, hread, drop_digits hlen]
  split at h
  · next v hhigh =>
    -- a second escape, with which the first one may make a pair
    obtain ⟨m, hm⟩ : ∃ m, hexUnit? v = some m := by
      split at h
      · obtain ⟨rfl, rfl⟩ := Prod.mk.inj (Except.ok.inj h)
        rw [drop_digits hlen] at hrest
        exact exists_hexUnit_of_readStringFrom hrest
      · cases hv : hexUnit? v with
        | none => simp [hv] at h
        | some m => exact ⟨m, rfl⟩
    obtain ⟨ds', w, rfl, hlen', hne', hmarks', hhex'⟩ := hexUnit_eq_some hm
    have hsecond : r.run (.char '\\' :: .char 'u' :: (ds' ++ w)) =
        .char '\\' :: .char 'u' :: (ds' ++ r.run w) := by
      rw [run_backslash_cons (fun t' => by simp), run_cons (by decide), run_append hmarks']
    have hread' := hhex' (r.run w) (run_ne_nil hne')
    rw [if_neg (not_length_lt_five hlen' hne'), hm] at h
    simp only [hsecond, hhigh, if_neg (not_length_lt_five hlen' (run_ne_nil hne')), hread']
    refine ⟨h, ?_⟩
    simp only at h
    split at h
    · obtain ⟨rfl, rfl⟩ := Prod.mk.inj (Except.ok.inj h)
      rw [drop_pair hlen hlen', drop_pair hlen hlen']
    · obtain ⟨rfl, rfl⟩ := Prod.mk.inj (Except.ok.inj h)
      rw [drop_digits hlen, drop_digits hlen, hsecond]
  · next hpair =>
    obtain ⟨rfl, rfl⟩ := Prod.mk.inj (Except.ok.inj h)
    refine ⟨?_, by rw [drop_digits hlen, drop_digits hlen]⟩
    split
    · next v hhigh hv =>
      -- replacing makes no second escape
      obtain ⟨u', rfl, hu'⟩ := exists_of_run_eq_cons (by decide) hv
      obtain ⟨u'', rfl, -⟩ := exists_of_run_eq_cons (by decide) hu'
      exact (hpair _ hhigh rfl).elim
    · rfl

/-- What a backslash escapes stays. -/
theorem run_escaped {e : CodePoint} (he : shortEscape? e = some c)
    (h : readStringFrom start 0 t = .ok (s, rest)) (hrest : rest.head? ≠ some brace) :
    r.run (e :: t) = e :: r.run t := by
  by_cases hmark : IsMark e
  · obtain rfl : e = .char '\\' := by
      obtain rfl | rfl | rfl := hmark
      · simp [shortEscape?, brace] at he
      · rfl
      · simp [shortEscape?] at he
    refine run_backslash_cons ?_
    -- the quote would end the string, and the brace follow it
    rintro t' rfl
    obtain ⟨-, rfl⟩ := Prod.mk.inj (Except.ok.inj h)
    exact hrest rfl
  · exact run_cons hmark t

/-- A string is read after replacing with some occurrences replaced in what it is read as, unless a
brace follows its end. -/
theorem readStringFrom_run (h : readStringFrom start 0 t = .ok (s, rest))
    (hrest : rest.head? ≠ some brace) (start' : Text) :
    ∃ s', readStringFrom start' 0 (r.run t) = .ok (s', r.run rest) ∧ r.Steps s s' := by
  induction hn : t.length using Nat.strong_induction_on generalizing t s with
  | _ n ih =>
    subst hn
    by_cases hold : r.old <+: t
    · obtain ⟨t, rfl⟩ := hold
      obtain ⟨s, rfl, hs⟩ := r.spells_old.of_append h
      have hlt : t.length < (r.old ++ t).length := by
        have hpos := List.length_pos_of_ne_nil r.old_ne_nil
        rw [List.length_append]
        omega
      obtain ⟨s', hs', hsteps⟩ := ih _ hlt hs rfl
      exact ⟨r.now ++ s', by rw [run_old, r.spells_new.read hs'], hsteps.replaced⟩
    cases stringStep_of_readStringFrom h with
    | quote => exact ⟨[], by rw [run_cons (by decide)]; rfl, .refl⟩
    | @plain t s _ c hplain hs =>
      obtain ⟨s', hs', hsteps⟩ := ih _ (Nat.lt_succ_self _) hs rfl
      refine ⟨c :: s', ?_, hsteps.append [c]⟩
      rw [run_cons_of_not_isPrefix hold]
      exact readStringFrom_plain hplain hs'
    | @short t s _ e c hu hshort hs =>
      obtain ⟨s', hs', hsteps⟩ := ih _ (by simp only [List.length_cons]; omega) hs rfl
      refine ⟨c :: s', ?_, hsteps.append [c]⟩
      have hrun : r.run (e :: t) = e :: r.run t := run_escaped hshort hs hrest
      rw [run_cons_of_not_isPrefix hold, hrun]
      exact readStringFrom_short hu hshort hs'
    | @numbered t s _ c n hescape hs =>
      obtain ⟨hescape', hdrop⟩ := readUnicodeEscape_run (r := r) hescape hs
      obtain ⟨s', hs', hsteps⟩ := ih _ (by simp only [List.length_drop, List.length_cons]; omega) hs rfl
      refine ⟨c :: s', ?_, hsteps.append [c]⟩
      rw [run_cons_of_not_isPrefix hold, run_cons (by decide)]
      exact readStringFrom_numbered hescape' (by rw [hdrop, hs'])

/-! ### Between strings -/

section

variable {p : CodePoint → Bool}

/-- The code points of a class that has no marks come first after replacing as they did before. -/
theorem span_run (hp : ∀ c, IsMark c → p c = false) (t : Text) :
    (r.run t).takeWhile p = t.takeWhile p ∧ (r.run t).dropWhile p = r.run (t.dropWhile p) := by
  induction t with
  | nil => exact ⟨rfl, rfl⟩
  | cons c t ih =>
    by_cases hc : p c = true
    · have hmark : ¬ IsMark c := fun hmark => by simp [hp c hmark] at hc
      simp only [run_cons hmark, List.takeWhile_cons_of_pos hc, List.dropWhile_cons_of_pos hc, ih,
        and_self]
    · rw [List.takeWhile_cons_of_neg hc, List.dropWhile_cons_of_neg hc]
      cases hrun : r.run (c :: t) with
      | nil => exact ⟨rfl, rfl⟩
      | cons d u =>
        have hd : ¬ p d = true := by
          by_cases hbrace : d = brace
          · simp [hbrace, hp brace (.inl rfl)]
          · obtain ⟨t', heq, -⟩ := exists_of_run_eq_cons hbrace hrun
            rwa [← (List.cons.inj heq).1]
        exact ⟨List.takeWhile_cons_of_neg hd, List.dropWhile_cons_of_neg hd⟩

end

theorem skipSpaces_run (t : Text) : skipSpaces (r.run t) = r.run (skipSpaces t) := by
  refine (span_run ?_ t).2
  rintro c (rfl | rfl | rfl) <;> rfl

/-- What comes next stays if an old text does not start with it. -/
theorem skipSpaces_run_cons (hc : ¬ IsMark c) (h : skipSpaces t = c :: rest) :
    skipSpaces (r.run t) = c :: r.run rest := by
  rw [skipSpaces_run, h, run_cons hc]

theorem skipSpaces_run_ne (hc : c ≠ brace) (h : ∀ u, skipSpaces t ≠ c :: u) (u : Text) :
    skipSpaces (r.run t) ≠ c :: u := by
  intro hrun
  rw [skipSpaces_run] at hrun
  obtain ⟨t', ht', -⟩ := exists_of_run_eq_cons hc hrun
  exact h t' ht'

theorem drop_run (h : s <+: t) (hs : ∀ c ∈ s, ¬ IsMark c) :
    (r.run t).drop s.length = r.run (t.drop s.length) := by
  obtain ⟨t, rfl⟩ := h
  rw [run_append hs, List.drop_left, List.drop_left]

theorem digits_run (t : Text) : digits (r.run t) = digits t := by
  refine (span_run ?_ t).1
  rintro c (rfl | rfl | rfl) <;> rfl

theorem not_isMark_of_isDigit (h : c.isDigit = true) : ¬ IsMark c := by
  rintro (rfl | rfl | rfl) <;> exact absurd h (by decide)

/-- Reading by what comes first is reading after replacing. -/
theorem forall_ne_cons_run (hc : c ≠ brace) (h : ∀ u, t ≠ c :: u) (u : Text) : r.run t ≠ c :: u := by
  intro hrun
  obtain ⟨t', ht', -⟩ := exists_of_run_eq_cons hc hrun
  exact h t' ht'

theorem whole_run (t : Text) : whole (r.run t) = whole t := by
  by_cases hzero : ∃ u, t = .char '0' :: u
  · obtain ⟨u, rfl⟩ := hzero
    rw [run_cons (by decide)]
    rfl
  · have hne : ∀ u, t ≠ .char '0' :: u := fun u hu => hzero ⟨u, hu⟩
    have hrun := forall_ne_cons_run (r := r) (by decide) hne
    have hdigits : ∀ x : Text, (∀ u, x ≠ .char '0' :: u) → whole x = digits x := by
      intro x hx
      unfold whole
      split
      · exact absurd rfl (hx _)
      · rfl
    rw [hdigits t hne, hdigits _ hrun, digits_run]

theorem fraction_run (t : Text) : fraction (r.run t) = fraction t := by
  by_cases hpoint : ∃ u, t = .char '.' :: u
  · obtain ⟨u, rfl⟩ := hpoint
    rw [run_cons (by decide)]
    exact digits_run u
  · have hne : ∀ u, t ≠ .char '.' :: u := fun u hu => hpoint ⟨u, hu⟩
    have hrun := forall_ne_cons_run (r := r) (by decide) hne
    have hnil : ∀ x : Text, (∀ u, x ≠ .char '.' :: u) → fraction x = [] := by
      intro x hx
      unfold fraction
      split
      · exact absurd rfl (hx _)
      · rfl
    rw [hnil t hne, hnil _ hrun]

theorem exponent_run (t : Text) : exponent? (r.run t) = exponent? t := by
  by_cases he : ∃ c u, t = c :: u ∧ (c = .char 'e' ∨ c = .char 'E')
  · obtain ⟨c, u, rfl, hc⟩ := he
    have hmark : ¬ IsMark c := by obtain rfl | rfl := hc <;> decide
    rw [run_cons hmark]
    by_cases hminus : ∃ v, u = .char '-' :: v
    · obtain ⟨v, rfl⟩ := hminus
      rw [run_cons (by decide)]
      obtain rfl | rfl := hc <;> simp only [exponent?, digits_run]
    by_cases hplus : ∃ v, u = .char '+' :: v
    · obtain ⟨v, rfl⟩ := hplus
      rw [run_cons (by decide)]
      obtain rfl | rfl := hc <;> simp only [exponent?, digits_run]
    have hminus' : ∀ v, u ≠ .char '-' :: v := fun v hv => hminus ⟨v, hv⟩
    have hplus' : ∀ v, u ≠ .char '+' :: v := fun v hv => hplus ⟨v, hv⟩
    have hrun := forall_ne_cons_run (r := r) (by decide) hminus'
    have hrun' := forall_ne_cons_run (r := r) (by decide) hplus'
    have hunsigned : ∀ x : Text, (∀ v, x ≠ .char '-' :: v) → (∀ v, x ≠ .char '+' :: v) →
        exponent? (c :: x) = if (digits x).isEmpty then none
          else some ((Text.toNat (digits x) : Int), (digits x).length + 1) := by
      intro x hx hx'
      obtain rfl | rfl := hc <;> simp only [exponent?, true_or, or_true, if_true]
    rw [hunsigned u hminus' hplus', hunsigned _ hrun hrun', digits_run]
  · have hnone : ∀ x : Text, (∀ u, x ≠ .char 'e' :: u) → (∀ u, x ≠ .char 'E' :: u) →
        exponent? x = none := by
      intro x hx hx'
      unfold exponent?
      split
      · rw [if_neg]
        rintro (rfl | rfl)
        · exact hx _ rfl
        · exact hx' _ rfl
      · rfl
    have hlower : ∀ u, t ≠ .char 'e' :: u := fun u hu => he ⟨_, u, hu, .inl rfl⟩
    have hupper : ∀ u, t ≠ .char 'E' :: u := fun u hu => he ⟨_, u, hu, .inr rfl⟩
    rw [hnone t hlower hupper, hnone _ (forall_ne_cons_run (by decide) hlower)
      (forall_ne_cons_run (by decide) hupper)]

theorem exists_of_exponent {e : Int} {n : Nat} (h : exponent? t = some (e, n)) :
    ∃ s, s <+: t ∧ s.length = n ∧ ∀ c ∈ s, ¬ IsMark c := by
  have hdigits : ∀ x : Text, digits x <+: x ∧ ∀ c ∈ digits x, ¬ IsMark c := fun x =>
    ⟨List.takeWhile_prefix _, fun c hc =>
      not_isMark_of_isDigit (List.all_eq_true.1 List.all_takeWhile c hc)⟩
  unfold exponent? at h
  split at h
  · split at h
    · next c u hc =>
      have hmark : ¬ IsMark (.char c) := by obtain rfl | rfl := hc <;> decide
      split at h
      · next v =>
        split at h
        · simp at h
        obtain ⟨-, rfl⟩ := Prod.mk.inj (Option.some.inj h)
        refine ⟨.char c :: .char '-' :: digits v, ?_, rfl, ?_⟩
        · simpa using (hdigits v).1
        · simpa [hmark] using ⟨by decide, (hdigits v).2⟩
      · next v =>
        split at h
        · simp at h
        obtain ⟨-, rfl⟩ := Prod.mk.inj (Option.some.inj h)
        refine ⟨.char c :: .char '+' :: digits v, ?_, rfl, ?_⟩
        · simpa using (hdigits v).1
        · simpa [hmark] using ⟨by decide, (hdigits v).2⟩
      · split at h
        · simp at h
        obtain ⟨-, rfl⟩ := Prod.mk.inj (Option.some.inj h)
        refine ⟨.char c :: digits u, ?_, rfl, ?_⟩
        · simpa using (hdigits u).1
        · simpa [hmark] using (hdigits u).2
    · simp at h
  · simp at h

theorem not_isMark_of_mem_whole (h : c ∈ whole t) : ¬ IsMark c :=
  not_isMark_of_isDigit (isDigit_of_mem_whole h)

/-- What follows a fraction after replacing. -/
theorem drop_fraction_run (t : Text) (h : (fraction t).isEmpty = false) :
    (r.run t).drop ((fraction t).length + 1) = r.run (t.drop ((fraction t).length + 1)) := by
  unfold fraction at h ⊢
  split
  · next u =>
    refine drop_run (s := .char '.' :: digits u) ?_ ?_
    · exact List.cons_prefix_cons.2 ⟨rfl, List.takeWhile_prefix _⟩
    · intro c hc
      obtain rfl | hc := List.mem_cons.1 hc
      · decide
      · exact not_isMark_of_isDigit (List.all_eq_true.1 List.all_takeWhile c hc)
  · next hne =>
    split at h
    · exact absurd rfl (hne _)
    · simp at h

/-- A number is read after replacing as it was before. -/
theorem readNumber_run {negative : Bool} {v : Json} (h : readNumber start negative t = .ok (v, rest))
    (start' : Text) : readNumber start' negative (r.run t) = .ok (v, r.run rest) := by
  unfold readNumber at h ⊢
  have hwhole : (r.run t).drop (whole t).length = r.run (t.drop (whole t).length) :=
    drop_run (whole_isPrefix t) fun c hc => not_isMark_of_mem_whole hc
  simp only [whole_run, hwhole, fraction_run] at h ⊢
  generalize t.drop (whole t).length = t₁ at h ⊢
  have hfraction : (if (fraction t₁).isEmpty = true then r.run t₁
      else (r.run t₁).drop ((fraction t₁).length + 1)) =
      r.run (if (fraction t₁).isEmpty = true then t₁ else t₁.drop ((fraction t₁).length + 1)) := by
    split
    · rfl
    · next hne => exact drop_fraction_run t₁ (by simpa using hne)
  simp only [hfraction, exponent_run] at h ⊢
  generalize (if (fraction t₁).isEmpty = true then t₁
    else t₁.drop ((fraction t₁).length + 1)) = t₂ at h ⊢
  split at h
  · simp at h
  next hsome =>
  rw [if_neg hsome]
  split at h
  · next hf he =>
    split at h
    · simp at h
    next hlimit =>
    rw [if_neg hlimit]
    obtain ⟨rfl, rfl⟩ := Prod.mk.inj (Except.ok.inj h)
    rfl
  · next hf he =>
    obtain ⟨rfl, rfl⟩ := Prod.mk.inj (Except.ok.inj h)
    rfl
  · next he =>
    obtain ⟨s, hs, rfl, hmarks⟩ := exists_of_exponent he
    obtain ⟨rfl, rfl⟩ := Prod.mk.inj (Except.ok.inj h)
    simp only [drop_run hs hmarks]

theorem afterStart_run (hs : ∀ c ∈ s, ¬ IsMark c) (hne : brace ∉ s) (t : Text) :
    Text.afterStart? s (r.run t) = (Text.afterStart? s t).map r.run := by
  obtain ⟨core, hnew⟩ := r.braced
  have hiff : s <+: r.run t ↔ s <+: t := by
    constructor
    · intro h
      rw [run, hnew] at h
      exact isPrefixOf_of_replace (clear_of_not_mem hne) r.old_ne_nil h
    · rintro ⟨u, rfl⟩
      rw [run_append hs]
      exact List.prefix_append s _
  unfold Text.afterStart?
  by_cases h : s <+: t
  · rw [if_pos (isPrefixOf_iff.2 h), if_pos (isPrefixOf_iff.2 (hiff.2 h)), drop_run h hs]
    rfl
  · rw [if_neg (fun h' => h (isPrefixOf_iff.1 h')),
      if_neg (fun h' => h (hiff.1 (isPrefixOf_iff.1 h')))]
    rfl

/-- A word is read after replacing as it was before. -/
theorem readWord_run (t : Text) :
    readWord? (r.run t) = (readWord? t).map fun found => (found.1, r.run found.2) := by
  unfold readWord?
  generalize hwords : ([((("null" : Text)), Json.null), ("true", .bool true), ("false", .bool false),
    ("NaN", .real .nan), ("Infinity", .real (.infinite false)),
    ("-Infinity", .real (.infinite true))] : List (Text × Json)) = words
  have hclear : ∀ w ∈ words.map (·.1), (∀ c ∈ w, ¬ IsMark c) ∧ brace ∉ w := by
    rw [← hwords]
    decide
  clear hwords
  induction words with
  | nil => rfl
  | cons w words ih =>
    obtain ⟨word, value⟩ := w
    obtain ⟨⟨hmarks, hbrace⟩, hrest⟩ := List.forall_mem_cons.1 hclear
    have hword : Text.afterStart? word (r.run t) = (Text.afterStart? word t).map r.run :=
      afterStart_run hmarks hbrace t
    simp only [List.findSome?_cons, ih hrest, hword]
    cases Text.afterStart? word t <;> rfl

/-- A word or a number is read after replacing as it was before. -/
theorem readPlain_run {v : Json} (h : readPlain t = .ok (v, rest)) :
    readPlain (r.run t) = .ok (v, r.run rest) := by
  unfold readPlain at h ⊢
  rw [readWord_run]
  split at h
  · next found hfound =>
    obtain rfl := Except.ok.inj h
    rw [hfound]
    rfl
  next hnone =>
  rw [hnone]
  simp only [Option.map_none]
  split at h
  · next u =>
    rw [run_cons (by decide)]
    exact readNumber_run h _
  · next hne =>
    split
    · next u hu => exact absurd hu (forall_ne_cons_run (by decide) hne u)
    · exact readNumber_run h _

end Retouch

/-! ## Documents of the same shape -/

/-- The parts of two documents are of the same shape. -/
inductive Part.Alike (R : Text → Text → Prop) : Part → Part → Prop
  | value {v v' : Json} : Json.Alike R v v' → Part.Alike R (.value v) (.value v')
  | items {vs vs' : List Json} : vs.length = vs'.length →
      (∀ pair ∈ vs.zip vs', Json.Alike R pair.1 pair.2) → Part.Alike R (.items vs) (.items vs')
  | members {ms ms' : List (Text × Json)} : ms.length = ms'.length →
      (∀ pair ∈ ms.zip ms', R pair.1.1 pair.2.1) →
      (∀ pair ∈ ms.zip ms', Json.Alike R pair.1.2 pair.2.2) →
      Part.Alike R (.members ms) (.members ms')

theorem alike_of_isBare {R : Text → Text → Prop} {v : Json} (h : IsBare v) : Alike R v v := by
  cases v with
  | null => exact .null
  | bool b => exact .bool b
  | integer n => exact .integer n
  | real x => exact .real x
  | string | array | object => exact h.elim

namespace Retouch

variable {r : Retouch} {depth : Nat}

/-- A brace ahead is no blank. -/
theorem exists_skipSpaces_of_head (h : t.head? = some brace) : ∃ u, skipSpaces t = brace :: u := by
  cases t with
  | nil => simp at h
  | cons c t =>
    obtain rfl : c = brace := by simpa using h
    exact ⟨t, rfl⟩

theorem head_ne_brace_of_skipSpaces (hc : c ≠ brace) (h : skipSpaces t = c :: rest) :
    t.head? ≠ some brace := by
  intro hhead
  obtain ⟨u, hu⟩ := exists_skipSpaces_of_head hhead
  rw [h] at hu
  exact hc (List.cons.inj hu).1

/-- No brace follows the one that opens an object. -/
theorem head_ne_brace_of_reads {ms : List (Text × Json)}
    (h : Reads depth (skipSpaces t) (.members ms) rest) : t.head? ≠ some brace := by
  intro hhead
  obtain ⟨u, hu⟩ := exists_skipSpaces_of_head hhead
  rw [hu] at h
  cases h

/-- A part of a document is read after replacing with some occurrences replaced in its strings, unless
a brace follows its end. -/
theorem reads_run {part : Part} (h : Reads depth t part rest) (hrest : rest.head? ≠ some brace) :
    ∃ part', Reads depth (r.run t) part' (r.run rest) ∧ part.Alike r.Steps part' := by
  induction h with
  | string hs =>
    obtain ⟨s', hs', hsteps⟩ := readStringFrom_run (r := r) hs hrest (.char '"' :: r.run _)
    refine ⟨.value (.string s'), ?_, .value (.string hsteps)⟩
    rw [run_cons (by decide)]
    exact .string hs'
  | plain hplain =>
    exact ⟨.value _, .plain (readPlain_run hplain),
      .value (alike_of_isBare (isBare_of_readPlain hplain).1)⟩
  | emptyArray hend =>
    refine ⟨.value (.array []), ?_, .value (.array rfl (by simp))⟩
    rw [run_cons (by decide)]
    exact .emptyArray (skipSpaces_run_cons (by decide) hend)
  | array hne hitems ih =>
    obtain ⟨part', hreads, halike⟩ := ih hrest
    rw [← skipSpaces_run] at hreads
    cases halike with
    | items hlen hall =>
      refine ⟨.value (.array _), ?_, .value (.array hlen hall)⟩
      rw [run_cons (by decide)]
      exact .array (skipSpaces_run_ne (by decide) hne) hreads
  | emptyObject hend =>
    refine ⟨.value (.object []), ?_, .value (.object rfl (by simp) (by simp))⟩
    rw [← brace, run_brace_cons (head_ne_brace_of_skipSpaces (by decide) hend)]
    exact .emptyObject (skipSpaces_run_cons (by decide) hend)
  | object hne hmembers ih =>
    obtain ⟨part', hreads, halike⟩ := ih hrest
    rw [← skipSpaces_run] at hreads
    cases halike with
    | members hlen hnames hall =>
      refine ⟨.value (.object _), ?_, .value (.object hlen hnames hall)⟩
      rw [← brace, run_brace_cons (head_ne_brace_of_reads hmembers)]
      exact .object (skipSpaces_run_ne (by decide) hne) hreads
  | lastItem hv hend ih =>
    obtain ⟨part', hreads, halike⟩ := ih (head_ne_brace_of_skipSpaces (by decide) hend)
    cases halike with
    | value hv' =>
      refine ⟨.items [_], .lastItem hreads (skipSpaces_run_cons (by decide) hend), .items rfl ?_⟩
      simpa using hv'
  | item hv hcomma hitems ih ihs =>
    obtain ⟨part', hread, halike⟩ := ih (head_ne_brace_of_skipSpaces (by decide) hcomma)
    obtain ⟨parts', hreads, halikes⟩ := ihs hrest
    rw [← skipSpaces_run] at hreads
    cases halike with
    | value hv' =>
      cases halikes with
      | items hlen hall =>
        refine ⟨.items (_ :: _), .item hread (skipSpaces_run_cons (by decide) hcomma) hreads,
          .items (congrArg Nat.succ hlen) ?_⟩
        rw [List.zip_cons_cons]
        exact List.forall_mem_cons.2 ⟨hv', hall⟩
  | lastMember hs hcolon hv hend ih =>
    obtain ⟨name', hname, hsteps⟩ := readStringFrom_run (r := r) hs
      (head_ne_brace_of_skipSpaces (by decide) hcolon) (.char '"' :: r.run _)
    obtain ⟨part', hread, halike⟩ := ih (head_ne_brace_of_skipSpaces (by decide) hend)
    rw [← skipSpaces_run] at hread
    cases halike with
    | value hv' =>
      refine ⟨.members [(name', _)], ?_, .members rfl (by simpa using hsteps) (by simpa using hv')⟩
      rw [run_cons (by decide)]
      exact .lastMember hname (skipSpaces_run_cons (by decide) hcolon) hread
        (skipSpaces_run_cons (by decide) hend)
  | member hs hcolon hv hcomma hmembers ih ihs =>
    obtain ⟨name', hname, hsteps⟩ := readStringFrom_run (r := r) hs
      (head_ne_brace_of_skipSpaces (by decide) hcolon) (.char '"' :: r.run _)
    obtain ⟨part', hread, halike⟩ := ih (head_ne_brace_of_skipSpaces (by decide) hcomma)
    obtain ⟨parts', hreads, halikes⟩ := ihs hrest
    rw [← skipSpaces_run] at hread hreads
    cases halike with
    | @value _ v' hv' =>
      cases halikes with
      | @members _ ms' hlen hnames hall =>
        refine ⟨.members ((name', v') :: ms'), ?_, .members (congrArg Nat.succ hlen) ?_ ?_⟩
        · rw [run_cons (by decide)]
          exact .member hname (skipSpaces_run_cons (by decide) hcolon) hread
            (skipSpaces_run_cons (by decide) hcomma) hreads
        · rw [List.zip_cons_cons]
          exact List.forall_mem_cons.2 ⟨hsteps, hnames⟩
        · rw [List.zip_cons_cons]
          exact List.forall_mem_cons.2 ⟨hv', hall⟩

/-- What is written in a document is written after replacing with some occurrences replaced in its
strings. -/
theorem written_run {w : Json} (h : Written t w) :
    ∃ w', Written (r.run t) w' ∧ Alike r.Steps w w' := by
  obtain ⟨hmark, rest, hreads, hend⟩ := h
  have hrest : rest.head? ≠ some brace := by
    intro hhead
    obtain ⟨u, hu⟩ := exists_skipSpaces_of_head hhead
    simp [hend] at hu
  obtain ⟨part', hreads', halike⟩ := reads_run (r := r) hreads hrest
  rw [← skipSpaces_run] at hreads'
  cases halike with
  | value hw' =>
    refine ⟨_, ⟨forall_ne_cons_run (by decide) hmark, _, hreads', ?_⟩, hw'⟩
    rw [skipSpaces_run, hend]
    rfl

end Retouch

end WorkflowLint.Json
