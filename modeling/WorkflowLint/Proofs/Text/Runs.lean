import Mathlib.Tactic.Common
import WorkflowLint.Proofs.Text.Parts
import WorkflowLint.Proofs.Text.Slug

/-!
# Slugs are canonical

A run of a class of code points stands at the places from one to another of a text if all of these belong
to the class and neither neighbour does (`IsRun`).  The runs of a text are the texts at these places, in
order (`exists_places`).  A slug is made of runs of letters and digits that are joined by hyphens
(`IsSlug`), the slugs are the texts that are their own slugs (`slug_eq_self_iff`), and the runs in the slug
of a name are those of its lower-case form (`slug_canonical`).
-/

namespace WorkflowLint

namespace Text

/-! ## Places of runs -/

/-- Whether a code point of a class stands at a place. -/
def belongsAt (p : CodePoint → Bool) (t : Text) (i : ℕ) : Bool := t[i]?.any p

/-- The places from `start` to before `stop` are those of a run that cannot be made longer. -/
structure IsRun (p : CodePoint → Bool) (t : Text) (start stop : ℕ) : Prop where
  lt : start < stop
  inside : ∀ i, start ≤ i → i < stop → belongsAt p t i = true
  left : ∀ i, i + 1 = start → belongsAt p t i = false
  right : belongsAt p t stop = false

/-- The text at the places from the first number to before the second one. -/
def textAt (t : Text) (q : ℕ × ℕ) : Text := (t.take q.2).drop q.1

variable {p : CodePoint → Bool} {run s t : Text} {c : CodePoint} {m n : ℕ}

theorem lt_length_of_belongsAt (h : belongsAt p t n = true) : n < t.length := by
  by_contra hle
  rw [belongsAt, List.getElem?_eq_none (Nat.not_lt.1 hle)] at h
  simp at h

/-- The text at some places, up to one behind a code point, ends with that code point. -/
theorem textAt_succ (hm : m ≤ n) (hc : t[n]? = some c) : textAt t (m, n + 1) = textAt t (m, n) ++ [c] := by
  have hn : n < t.length := (List.getElem?_eq_some_iff.1 hc).1
  have hmn : m ≤ (t.take n).length := by
    rw [List.length_take]
    omega
  unfold textAt
  rw [List.take_add_one, hc, List.drop_append_of_le_length hmn]
  rfl

theorem textAt_self (t : Text) (n : ℕ) : textAt t (n, n) = [] :=
  List.drop_eq_nil_of_le (List.length_take_le n t)

theorem textAt_ne_nil (hm : m < n) (hn : n ≤ t.length) : textAt t (m, n) ≠ [] := by
  intro h
  have hlen := congrArg List.length h
  simp only [textAt, List.length_drop, List.length_take, List.length_nil] at hlen
  omega

/-- Two runs with a place in common are the same run. -/
theorem IsRun.eq_of_overlap {i j : ℕ} (h : IsRun p t i j) (h' : IsRun p t m n) (hm : m ≤ i) (hi : i < n) :
    i = m ∧ j = n := by
  have hstart : i = m := by
    by_contra hne
    have htrue := h'.inside (i - 1) (by omega) (by omega)
    have hfalse := h.left (i - 1) (by omega)
    rw [htrue] at hfalse
    exact absurd hfalse (by decide)
  refine ⟨hstart, ?_⟩
  rcases Nat.lt_trichotomy j n with hlt | heq | hlt
  · have hbound := h.lt
    have htrue := h'.inside j (by omega) hlt
    rw [h.right] at htrue
    exact absurd htrue (by decide)
  · exact heq
  · have htrue := h.inside n (by omega) hlt
    rw [h'.right] at htrue
    exact absurd htrue (by decide)

/-- Some places are those of the runs of a text that start at `m` or later, from left to right. -/
structure ArePlacesFrom (p : CodePoint → Bool) (t : Text) (m : ℕ) (places : List (ℕ × ℕ)) : Prop where
  ordered : places.Pairwise fun a b => a.2 < b.1
  mem_iff : ∀ q, q ∈ places ↔ m ≤ q.1 ∧ IsRun p t q.1 q.2

/-- Where the places from `m` to before `n` belong to the class and the one at `n` does not, the runs that
start at `m` or later are the one at these places, unless there are none, and those behind `n`. -/
theorem ArePlacesFrom.exists_of_break {places : List (ℕ × ℕ)} (h : ArePlacesFrom p t (n + 1) places)
    (hn : n ≤ t.length) (hm : m ≤ n) (hinside : ∀ i, m ≤ i → i < n → belongsAt p t i = true)
    (hleft : ∀ i, i + 1 = m → belongsAt p t i = false) (hright : belongsAt p t n = false) :
    ∃ places', ArePlacesFrom p t m places' ∧
      (if (textAt t (m, n)).isEmpty then places.map (textAt t)
        else textAt t (m, n) :: places.map (textAt t)) = places'.map (textAt t) := by
  have hbehind : ∀ q : ℕ × ℕ, IsRun p t q.1 q.2 → n ≤ q.1 → n + 1 ≤ q.1 := by
    intro q hrun hq
    by_contra hlt
    have hbound := hrun.lt
    have htrue := hrun.inside n (by omega) (by omega)
    rw [hright] at htrue
    exact absurd htrue Bool.false_ne_true
  rcases Nat.eq_or_lt_of_le hm with rfl | hlt
  · refine ⟨places, ⟨h.ordered, fun q => ?_⟩, by rw [textAt_self]; rfl⟩
    refine (h.mem_iff q).trans (and_congr_left fun hrun => ?_)
    exact ⟨fun hq => by omega, hbehind q hrun⟩
  · have hne : (textAt t (m, n)).isEmpty = false := List.isEmpty_eq_false_iff.2 (textAt_ne_nil hlt hn)
    have hfirst : IsRun p t m n := ⟨hlt, hinside, hleft, hright⟩
    refine ⟨(m, n) :: places, ⟨List.pairwise_cons.2 ⟨?_, h.ordered⟩, fun q => ?_⟩, by rw [hne]; rfl⟩
    · intro q hq
      exact ((h.mem_iff q).1 hq).1
    · rw [List.mem_cons, h.mem_iff]
      constructor
      · rintro (rfl | ⟨hq, hrun⟩)
        · exact ⟨Nat.le_refl _, hfirst⟩
        · exact ⟨by omega, hrun⟩
      · rintro ⟨hq, hrun⟩
        by_cases hover : q.1 < n
        · obtain ⟨hstart, hstop⟩ := hrun.eq_of_overlap hfirst hq hover
          exact .inl (Prod.ext hstart hstop)
        · exact .inr ⟨hbehind q hrun (Nat.not_lt.1 hover), hrun⟩

/-- The places of the runs of a text that start at `m` or later, where those from `m` to before `n` belong
to the class and those from `n` on are the places of the code points ahead. -/
theorem exists_places_from (hn : n ≤ t.length) (hm : m ≤ n) (hahead : t.drop n = s)
    (hinside : ∀ i, m ≤ i → i < n → belongsAt p t i = true)
    (hleft : ∀ i, i + 1 = m → belongsAt p t i = false) :
    ∃ places, ArePlacesFrom p t m places ∧
      runsAfter p (textAt t (m, n)) s = places.map (textAt t) := by
  -- by the code points ahead; the run before them grows, or ends where one does not belong to the class
  induction s generalizing m n with
  | nil =>
    have hlen : n = t.length := Nat.le_antisymm hn (List.drop_eq_nil_iff.1 hahead)
    have hright : belongsAt p t n = false := by simp [belongsAt, hlen]
    have hnone : ArePlacesFrom p t (n + 1) [] := by
      refine ⟨.nil, fun q => iff_of_false List.not_mem_nil ?_⟩
      rintro ⟨hq, hrun⟩
      have hstart := lt_length_of_belongsAt (hrun.inside q.1 (Nat.le_refl _) hrun.lt)
      omega
    rw [runsAfter]
    exact hnone.exists_of_break hn hm hinside hleft hright
  | cons c s ih =>
    have hnlt : n < t.length := by
      have hlen := congrArg List.length hahead
      simp only [List.length_drop, List.length_cons] at hlen
      omega
    have hc : t[n]? = some c := by
      have hget : (t.drop n)[0]? = some c := by rw [hahead, List.getElem?_cons_zero]
      rwa [List.getElem?_drop] at hget
    have hdrop : t.drop (n + 1) = s := by rw [← List.tail_drop, hahead, List.tail_cons]
    have hbelongs : belongsAt p t n = p c := by rw [belongsAt, hc, Option.any_some]
    rw [runsAfter]
    cases hp : p c with
    | true =>
      rw [if_pos rfl, ← textAt_succ hm hc]
      refine ih hnlt (by omega) hdrop (fun i hi hlt => ?_) hleft
      rcases Nat.lt_succ_iff_lt_or_eq.1 hlt with hlt | rfl
      · exact hinside i hi hlt
      · rw [hbelongs, hp]
    | false =>
      rw [hp] at hbelongs
      -- no run stands at the place of the code point, so the others start behind it
      obtain ⟨places, hplaces, heq⟩ := ih (m := n + 1) hnlt (Nat.le_refl _) hdrop
        (fun i hi hlt => absurd hi (Nat.not_le.2 hlt)) fun i hi => by
          rw [Nat.succ.inj hi, hbelongs]
      rw [textAt_self] at heq
      rw [if_neg Bool.false_ne_true, heq]
      exact hplaces.exists_of_break hn hm hinside hleft hbelongs

/-- The runs of a text are the texts at the places of its runs, from left to right. -/
theorem exists_places (p : CodePoint → Bool) (t : Text) :
    ∃ places : List (ℕ × ℕ), runs p t = places.map (textAt t) ∧
      places.Pairwise (fun a b => a.2 < b.1) ∧ ∀ q, q ∈ places ↔ IsRun p t q.1 q.2 := by
  obtain ⟨places, hplaces, heq⟩ := exists_places_from (p := p) (Nat.zero_le t.length)
    (Nat.le_refl 0) rfl (fun i _ hi => absurd hi (Nat.not_lt_zero i))
    (fun i hi => absurd hi (Nat.succ_ne_zero i))
  exact ⟨places, heq, hplaces.ordered, fun q =>
    (hplaces.mem_iff q).trans (and_iff_right (Nat.zero_le _))⟩

/-! ## Texts that are made of runs -/

theorem forall_of_mem_runsAfter {r : Text} (hrun : ∀ d ∈ run, p d = true) (h : r ∈ runsAfter p run t) :
    ∀ d ∈ r, p d = true := by
  induction t generalizing run with
  | nil =>
    rw [runsAfter] at h
    split at h
    · exact absurd h List.not_mem_nil
    · rwa [List.mem_singleton.1 h]
  | cons c t ih =>
    have hnil : ∀ d ∈ ([] : Text), p d = true := fun d hd => absurd hd List.not_mem_nil
    rw [runsAfter] at h
    split at h
    · next hc =>
      refine ih (List.forall_mem_append.2 ⟨hrun, fun d hd => ?_⟩) h
      rwa [List.mem_singleton.1 hd]
    split at h
    · exact ih hnil h
    · rcases List.mem_cons.1 h with rfl | h
      · exact hrun
      · exact ih hnil h

/-- Code points of the class join the run before them. -/
theorem runsAfter_append (run : Text) (hs : ∀ d ∈ s, p d = true) (t : Text) :
    runsAfter p run (s ++ t) = runsAfter p (run ++ s) t := by
  induction s generalizing run with
  | nil => rw [List.nil_append, List.append_nil]
  | cons c s ih =>
    obtain ⟨hc, hs⟩ := List.forall_mem_cons.1 hs
    rw [List.cons_append, runsAfter, if_pos hc, ih _ hs, List.append_assoc, List.singleton_append]

/-- Runs that are joined by a code point outside of the class are the runs again. -/
theorem runs_join (hc : p c = false) {rs : List Text}
    (h : ∀ r ∈ rs, r ≠ [] ∧ ∀ d ∈ r, p d = true) : runs p (join [c] rs) = rs := by
  induction rs with
  | nil => rfl
  | cons r rs ih =>
    obtain ⟨⟨hne, hr⟩, hrs⟩ := List.forall_mem_cons.1 h
    have hempty : r.isEmpty = false := List.isEmpty_eq_false_iff.2 hne
    cases rs with
    | nil =>
      have happend := runsAfter_append [] hr []
      rw [List.append_nil, List.nil_append] at happend
      rw [runs, join, happend, runsAfter, hempty]
      rfl
    | cons next rs =>
      rw [runs, join_cons_cons, List.append_assoc, runsAfter_append [] hr, List.nil_append,
        List.singleton_append, runsAfter, hc, hempty]
      exact congrArg (r :: ·) (ih hrs)

/-! ## Slugs -/

/-- A sequence, that may be empty, of runs of letters and digits that are joined by single hyphens. -/
def IsSlug (t : Text) : Prop :=
  ∃ rs : List Text, (∀ r ∈ rs, r ≠ [] ∧ ∀ c ∈ r, isSlugUnit c = true) ∧ t = join "-" rs

theorem isSlug_slug (name : Text) : IsSlug (slug name) := by
  refine ⟨runs isSlugUnit name.lower, fun r hr => ⟨ne_nil_of_mem_runsAfter hr, ?_⟩, rfl⟩
  exact forall_of_mem_runsAfter (fun d hd => absurd hd List.not_mem_nil) hr

/-- A text of ASCII code points that are no capital letters is its own lower-case form. -/
theorem lowerAfter_eq_self (h : ∀ c ∈ t, c.isUpper = false ∧ c.val < 0x80) (before : Text) :
    lowerAfter before t = t := by
  induction t generalizing before with
  | nil => rfl
  | cons c t ih =>
    obtain ⟨⟨hupper, hascii⟩, ht⟩ := List.forall_mem_cons.1 h
    have hsigma : c.val ≠ 0x3A3 := by omega
    have hlower : c.toLower = [c] := by simp [CodePoint.toLower, hupper, hascii]
    rw [lowerAfter, if_neg hsigma, hlower, ih ht, List.singleton_append]

/-- The code points of slugs are those from `0` to `9` and from `a` to `z`. -/
theorem isSlugUnit_iff :
    isSlugUnit c = true ↔ 0x30 ≤ c.val ∧ c.val ≤ 0x39 ∨ 0x61 ≤ c.val ∧ c.val ≤ 0x7A := by
  cases c with
  | surrogate k =>
    refine iff_of_false Bool.false_ne_true fun h => ?_
    simp only [CodePoint.val] at h
    omega
  | char c =>
    have hlower : c.isLower = (decide (c.val ≥ 97) && decide (c.val ≤ 122)) := rfl
    show (c.isDigit || c.isLower) = true ↔ _
    rw [CodePoint.val_char, hlower]
    simp [Char.isDigit, UInt32.le_iff_toNat_le]

theorem isUpper_eq_false_of_isSlugUnit (h : isSlugUnit c = true) : c.isUpper = false := by
  cases c with
  | surrogate k => rfl
  | char c =>
    have hval := isSlugUnit_iff.1 h
    rw [CodePoint.val_char] at hval
    have hupper : c.isUpper = decide (c.val ≥ 65 ∧ c.val ≤ 90) := rfl
    show c.isUpper = false
    by_contra hnot
    rw [hupper] at hnot
    have hbounds : 0x41 ≤ c.toNat ∧ c.toNat ≤ 0x5A := by
      simpa [UInt32.le_iff_toNat_le] using hnot
    omega

/-- A slug is its own slug. -/
theorem IsSlug.slug_eq (h : IsSlug t) : slug t = t := by
  obtain ⟨rs, hrs, rfl⟩ := h
  have hplain : ∀ c ∈ join "-" rs, c.isUpper = false ∧ c.val < 0x80 := by
    intro c hc
    by_cases hsep : c ∈ ("-" : Text)
    · rw [List.mem_singleton.1 hsep]
      decide
    · by_contra hnot
      refine (not_mem_join_iff hsep rs).2 (fun r hr hcr => hnot ?_) hc
      have hunit := (hrs r hr).2 c hcr
      have hval := isSlugUnit_iff.1 hunit
      exact ⟨isUpper_eq_false_of_isSlugUnit hunit, by omega⟩
  rw [slug, lower, lowerAfter_eq_self hplain]
  exact congrArg (join "-") (runs_join (by decide) hrs)

/-- The slugs are the texts that are their own slugs. -/
theorem slug_eq_self_iff : slug t = t ↔ IsSlug t := by
  constructor
  · intro h
    rw [← h]
    exact isSlug_slug t
  · exact IsSlug.slug_eq

/-- The slug of a name is a sequence of runs of letters and digits, joined by single hyphens: of those
at the places in its lower-case form where such a run stands that cannot be made longer, in order.  It is
empty exactly if there is neither a letter nor a digit in that form, and it is its own slug. -/
theorem slug_canonical (name : Text) :
    IsSlug (slug name) ∧
    (∃ places : List (ℕ × ℕ), slug name = join "-" (places.map (textAt name.lower)) ∧
      places.Pairwise (fun a b => a.2 < b.1) ∧
      ∀ q, q ∈ places ↔ IsRun isSlugUnit name.lower q.1 q.2) ∧
    (slug name = [] ↔ ∀ c ∈ name.lower, isSlugUnit c = false) ∧
    slug (slug name) = slug name := by
  obtain ⟨places, heq, hpairs, hmem⟩ := exists_places isSlugUnit name.lower
  refine ⟨isSlug_slug name, ⟨places, ?_, hpairs, hmem⟩, slug_eq_nil_iff, (isSlug_slug name).slug_eq⟩
  rw [slug, heq]

example : slug "--Straße 2/ \u0130D--" = "stra-e-2-i-d" := by decide +kernel

end Text
end WorkflowLint
