import WorkflowLint.Json.Reader

/-!
# What reading comes to

A reader of JSON leaves an end of the text that it is given, or says that the text has too many
digits in a row, or finds another defect (`Reading`).  It follows that a document without a long run
of digits is never refused for the size of a number (`digits_of_read_eq_tooManyDigits`).
-/

namespace WorkflowLint.Json

/-- So many digits stand in a row somewhere in a text. -/
def HasDigits (t : Text) (count : Nat) : Prop :=
  ∃ run, run <:+: t ∧ run.length = count ∧ ∀ c ∈ run, c.isDigit = true

/-- What a reader may come to on a text. -/
def Reading {α : Type} (t : Text) : Except ReadError (α × Text) → Prop
  | .ok found => found.2 <:+ t
  | .error (.tooManyDigits count) => digitLimit < count ∧ HasDigits t count
  | .error _ => True

variable {α : Type} {t u : Text}

theorem HasDigits.mono {count : Nat} (h : HasDigits t count) (ht : t <:+ u) : HasDigits u count := by
  obtain ⟨run, hrun, hlen, hdig⟩ := h
  exact ⟨run, hrun.trans ht.isInfix, hlen, hdig⟩

/-- A reader of the end of a text reads the text. -/
theorem Reading.mono {r : Except ReadError (α × Text)} (h : Reading t r) (ht : t <:+ u) :
    Reading u r := by
  match r, h with
  | .ok found, h => exact h.trans ht
  | .error (.tooManyDigits count), h => exact ⟨h.1, h.2.mono ht⟩
  | .error (.malformed _ _), _ => trivial
  | .error (.tooDeep _), _ => trivial

theorem Reading.ok {a : α} {rest : Text} (h : rest <:+ t) : Reading t (.ok (a, rest)) := h

/-- The error of one reader is that of another. -/
theorem Reading.error {β : Type} {e : ReadError} (h : Reading t (.error e : Except _ (α × Text))) :
    Reading t (.error e : Except _ (β × Text)) := by
  cases e <;> exact h

theorem skipSpaces_suffix (t : Text) : skipSpaces t <:+ t := List.dropWhile_suffix _

/-! ## Strings -/

theorem readUnicodeEscape_ne_tooManyDigits (t : Text) (count : Nat) :
    readUnicodeEscape t ≠ .error (.tooManyDigits count) := by
  unfold readUnicodeEscape
  cases hexUnit? (t.drop 1) with
  | none => simp
  | some n =>
    simp only
    generalize t.drop 5 = rest
    split
    · split
      · simp
      · split
        · simp
        · split <;> simp
    · simp

theorem reading_readUnicodeEscape_error {e : ReadError} (h : readUnicodeEscape t = .error e) :
    Reading u (.error e : Except _ (α × Text)) := by
  cases e with
  | tooManyDigits count => exact absurd h (readUnicodeEscape_ne_tooManyDigits t count)
  | malformed => trivial
  | tooDeep => trivial

theorem reading_readStringFrom (start : Text) (skip : Nat) (t : Text) :
    Reading t (readStringFrom start skip t) := by
  -- only an escape has an error of its own; every other clause hands on what it read behind it
  fun_induction readStringFrom start skip t with
  | case1 | case4 | case8 | case11 => trivial
  | case2 skip c t ih => exact ih.mono (List.suffix_cons _ _)
  | case3 t => exact .ok (List.suffix_cons _ _)
  | case5 t e _ he =>
    rw [he]
    exact reading_readUnicodeEscape_error he
  | case6 t c n e _ hu he ih =>
    rw [he] at ih
    simp only [hu, he]
    exact Reading.mono ih.error (List.suffix_cons _ _)
  | case7 t c n s rest _ hu hs ih =>
    rw [hs] at ih
    simp only [hu, hs]
    exact .ok (ih.trans (List.suffix_cons _ _))
  | case9 e t _ c _ err _ he ih =>
    rw [he] at ih
    simp only [he]
    exact ih.mono (List.suffix_cons _ _)
  | case10 e t _ c _ s rest _ hs ih =>
    rw [hs] at ih
    simp only [hs]
    exact .ok (ih.trans (List.suffix_cons _ _))
  | case12 c t _ _ _ err he ih =>
    rw [he] at ih
    exact ih.mono (List.suffix_cons _ _)
  | case13 c t _ _ _ s rest hs ih =>
    rw [hs] at ih
    exact .ok (ih.trans (List.suffix_cons _ _))

theorem reading_readString (t : Text) : Reading t (readString t) := reading_readStringFrom _ 0 t

/-! ## Numbers -/

theorem whole_isPrefix (t : Text) : whole t <+: t := by
  unfold whole
  split
  · exact ⟨_, rfl⟩
  · exact List.takeWhile_prefix _

theorem isDigit_of_mem_whole {c : CodePoint} (h : c ∈ whole t) : c.isDigit = true := by
  unfold whole at h
  split at h
  · rw [List.mem_singleton.1 h]
    rfl
  · exact List.all_eq_true.1 List.all_takeWhile c h

theorem reading_readNumber (start : Text) (negative : Bool) (t : Text) :
    Reading t (readNumber start negative t) := by
  unfold readNumber
  simp only
  split
  · trivial
  -- what lies behind the fraction, whether there is one or not
  have htail : (if (fraction (t.drop (whole t).length)).isEmpty then t.drop (whole t).length
      else (t.drop (whole t).length).drop ((fraction (t.drop (whole t).length)).length + 1)) <:+ t := by
    split
    · exact List.drop_suffix _ _
    · exact (List.drop_suffix _ _).trans (List.drop_suffix _ _)
  split
  · split
    · next hlen =>
      exact ⟨hlen, whole t, (whole_isPrefix t).isInfix, rfl, fun c hc => isDigit_of_mem_whole hc⟩
    · exact .ok (List.drop_suffix _ _)
  · exact .ok htail
  · exact .ok ((List.drop_suffix _ _).trans htail)

/-! ## Values -/

theorem reading_readWord {found : Json × Text} (h : readWord? t = some found) :
    Reading t (.ok found : Except ReadError _) := by
  obtain ⟨⟨word, value⟩, -, hword⟩ := List.exists_of_findSome?_eq_some h
  simp only [Text.afterStart?] at hword
  split at hword
  · obtain rfl : (value, t.drop word.length) = found := by simpa using hword
    exact List.drop_suffix _ _
  · simp at hword

/-- What reading comes to with so much fuel. -/
def ReadingWith (gather : List (Text × Json) → Members) (fuel : Nat) : Prop :=
  ∀ depth t, Reading t (readValue gather depth fuel t) ∧
    Reading t (readItems gather depth fuel t) ∧ Reading t (readMembers gather depth fuel t)

section

variable {gather : List (Text × Json) → Members} {fuel : Nat} (ih : ReadingWith gather fuel)
include ih

theorem ReadingWith.value (depth : Nat) (t : Text) :
    Reading t (readValue gather depth (fuel + 1) t) := by
  rw [readValue.eq_def]
  simp only
  split
  · next rest =>
    have hs := (reading_readString rest).mono (List.suffix_cons (.char '"') rest)
    split
    · next he => exact (he ▸ hs).error
    · next s r hr =>
      rw [hr] at hs
      exact .ok hs
  · next rest =>
    have hskip := (skipSpaces_suffix rest).trans (List.suffix_cons (.char '[') rest)
    split
    · trivial
    · next depth =>
      split
      · next r hr => exact .ok ((List.suffix_cons _ _).trans (hr ▸ hskip))
      · have hitems := (ih depth (skipSpaces rest)).2.1.mono hskip
        split
        · next he => exact (he ▸ hitems).error
        · next items r hr =>
          rw [hr] at hitems
          exact .ok hitems
  · next rest =>
    have hskip := (skipSpaces_suffix rest).trans (List.suffix_cons (.char '\x7b') rest)
    split
    · trivial
    · next depth =>
      split
      · next r hr => exact .ok ((List.suffix_cons _ _).trans (hr ▸ hskip))
      · have hmembers := (ih depth (skipSpaces rest)).2.2.mono hskip
        split
        · next he => exact (he ▸ hmembers).error
        · next members r hr =>
          rw [hr] at hmembers
          exact .ok hmembers
  · split
    · next found hword => exact reading_readWord hword
    · split
      · exact (reading_readNumber _ _ _).mono (List.suffix_cons _ _)
      · exact reading_readNumber _ _ _

theorem ReadingWith.items (depth : Nat) (t : Text) :
    Reading t (readItems gather depth (fuel + 1) t) := by
  rw [readItems.eq_def]
  simp only
  have hv := (ih depth t).1
  split
  · next he => exact (he ▸ hv).error
  · next item rest hr =>
    rw [hr] at hv
    have hskip : skipSpaces rest <:+ t := (skipSpaces_suffix rest).trans hv
    split
    · next r hr => exact .ok ((List.suffix_cons _ _).trans (hr ▸ hskip))
    · next r hr =>
      have hnext : skipSpaces r <:+ t :=
        (skipSpaces_suffix r).trans ((List.suffix_cons _ _).trans (hr ▸ hskip))
      have hitems := (ih depth (skipSpaces r)).2.1.mono hnext
      split
      · next he => exact he ▸ hitems
      · next items r' hr' =>
        rw [hr'] at hitems
        exact .ok hitems
    · trivial

theorem ReadingWith.members (depth : Nat) (t : Text) :
    Reading t (readMembers gather depth (fuel + 1) t) := by
  rw [readMembers.eq_def]
  simp only
  split
  · next rest =>
    have hs := (reading_readString rest).mono (List.suffix_cons (.char '"') rest)
    split
    · next he => exact (he ▸ hs).error
    · next name r hr =>
      rw [hr] at hs
      have hskip : skipSpaces r <:+ _ := (skipSpaces_suffix r).trans hs
      split
      · next r₁ hr₁ =>
        have hnext : skipSpaces r₁ <:+ _ :=
          (skipSpaces_suffix r₁).trans ((List.suffix_cons _ _).trans (hr₁ ▸ hskip))
        have hv := (ih depth (skipSpaces r₁)).1.mono hnext
        split
        · next he => exact (he ▸ hv).error
        · next value r₂ hr₂ =>
          rw [hr₂] at hv
          have hskip₂ : skipSpaces r₂ <:+ _ := (skipSpaces_suffix r₂).trans hv
          split
          · next r₃ hr₃ => exact .ok ((List.suffix_cons _ _).trans (hr₃ ▸ hskip₂))
          · next r₃ hr₃ =>
            have hnext₃ : skipSpaces r₃ <:+ _ :=
              (skipSpaces_suffix r₃).trans ((List.suffix_cons _ _).trans (hr₃ ▸ hskip₂))
            have hmembers := (ih depth (skipSpaces r₃)).2.2.mono hnext₃
            split
            · next he => exact he ▸ hmembers
            · next pairs r₄ hr₄ =>
              rw [hr₄] at hmembers
              exact .ok hmembers
          · trivial
      · trivial
  · trivial

end

theorem readingWith (gather : List (Text × Json) → Members) (fuel : Nat) :
    ReadingWith gather fuel := by
  induction fuel with
  | zero =>
    -- without fuel all three readers give up at once
    intro depth t
    rw [readValue.eq_def, readItems.eq_def, readMembers.eq_def]
    exact ⟨trivial, trivial, trivial⟩
  | succ fuel ih =>
    intro depth t
    exact ⟨ih.value depth t, ih.items depth t, ih.members depth t⟩

/-- A document that is refused for the size of a number has that many digits in a row. -/
theorem digits_of_read_eq_tooManyDigits {count : Nat} (h : read t = .error (.tooManyDigits count)) :
    digitLimit < count ∧ HasDigits t count := by
  unfold read readWith at h
  split at h
  · simp at h
  · have hv := (readingWith Members.ofPairs (2 * t.length + 2) depthLimit (skipSpaces t)).1.mono
      (skipSpaces_suffix t)
    split at h
    · next he =>
      rw [Except.error.inj h] at he
      rw [he] at hv
      exact hv
    · split at h <;> simp at h

end WorkflowLint.Json
