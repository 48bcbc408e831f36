import WorkflowLint.Json.Printer
import WorkflowLint.Json.Reader
import WorkflowLint.Proofs.Text.Utf8

/-!
# Strings read back

A string goes on with a code point for itself, with one of two kinds of escapes, or ends
(`stringStep_of_readStringFrom`).  A text spells another one if it is read as that one inside of any
string (`Spells`).

A string that was written is read back as it was (`readString_written`).  Every code point has its
own way of being written, and the reader undoes one after the other
(`readStringFrom_writtenUnit`).
-/

namespace WorkflowLint.Json

variable {start t s rest ds : Text} {c e : CodePoint}

/-! ## Steps of reading a string -/

theorem readStringFrom_drop (start : Text) (n : Nat) (t : Text) :
    readStringFrom start n t = readStringFrom start 0 (t.drop n) := by
  induction t generalizing n with
  | nil => cases n <;> rfl
  | cons c t ih =>
    cases n with
    | zero => rfl
    | succ n => exact ih n

/-- The code points that stand for themselves in strings. -/
def IsPlain (c : CodePoint) : Prop := c ≠ .char '"' ∧ c ≠ .char '\\' ∧ ¬ c.val < 0x20

instance : DecidablePred IsPlain := fun _ => inferInstanceAs (Decidable (_ ∧ _))

/-- A code point that stands for itself. -/
theorem readStringFrom_plain (hc : IsPlain c) (h : readStringFrom start 0 t = .ok (s, rest)) :
    readStringFrom start 0 (c :: t) = .ok (c :: s, rest) := by
  obtain ⟨hquote, hbackslash, hcontrol⟩ := hc
  simp only [readStringFrom, if_neg hquote, if_neg hbackslash, if_neg hcontrol, h]

/-- A code point behind a backslash. -/
theorem readStringFrom_short (hu : e ≠ .char 'u') (he : shortEscape? e = some c)
    (h : readStringFrom start 0 t = .ok (s, rest)) :
    readStringFrom start 0 (.char '\\' :: e :: t) = .ok (c :: s, rest) := by
  have hskip : readStringFrom start 1 (e :: t) = .ok (s, rest) := h
  rw [readStringFrom, if_neg (by decide), if_pos rfl]
  simp only [if_neg hu, he, hskip]

/-- A code point from its number, or a pair of numbers. -/
theorem readStringFrom_numbered {n : Nat} (hescape : readUnicodeEscape (.char 'u' :: t) = .ok (c, n))
    (h : readStringFrom start 0 (t.drop n) = .ok (s, rest)) :
    readStringFrom start 0 (.char '\\' :: .char 'u' :: t) = .ok (c :: s, rest) := by
  rw [readStringFrom, if_neg (by decide), if_pos rfl]
  simp only [if_true, hescape, readStringFrom_drop start (n + 1), List.drop_succ_cons, h]

/-- How a string goes on. -/
inductive StringStep (start : Text) : Text → Text → (rest : Text) → Prop
  | quote (t : Text) : StringStep start (.char '"' :: t) [] t
  | plain {t s rest : Text} {c : CodePoint} :
      IsPlain c → readStringFrom start 0 t = .ok (s, rest) → StringStep start (c :: t) (c :: s) rest
  | short {t s rest : Text} {e c : CodePoint} :
      e ≠ .char 'u' → shortEscape? e = some c → readStringFrom start 0 t = .ok (s, rest) →
      StringStep start (.char '\\' :: e :: t) (c :: s) rest
  | numbered {t s rest : Text} {c : CodePoint} {n : Nat} :
      readUnicodeEscape (.char 'u' :: t) = .ok (c, n) →
      readStringFrom start 0 (t.drop n) = .ok (s, rest) →
      StringStep start (.char '\\' :: .char 'u' :: t) (c :: s) rest

theorem stringStep_of_readStringFrom (h : readStringFrom start 0 t = .ok (s, rest)) :
    StringStep start t s rest := by
  cases t with
  | nil => simp [readStringFrom] at h
  | cons c t =>
    rw [readStringFrom.eq_def] at h
    simp only at h
    split at h
    · next hquote =>
      obtain ⟨rfl, rfl⟩ := Prod.mk.inj (Except.ok.inj h)
      exact hquote ▸ .quote t
    next hquote =>
    split at h
    · next hbackslash =>
      subst hbackslash
      split at h
      · simp at h
      next e t =>
      split at h
      · next hu =>
        subst hu
        split at h
        · simp at h
        next x n hescape =>
        split at h
        · simp at h
        next s' rest' hs =>
        obtain ⟨rfl, rfl⟩ := Prod.mk.inj (Except.ok.inj h)
        rw [readStringFrom_drop, List.drop_succ_cons] at hs
        exact .numbered hescape hs
      · next hu =>
        split at h
        · simp at h
        next x hshort =>
        split at h
        · simp at h
        next s' rest' hs =>
        obtain ⟨rfl, rfl⟩ := Prod.mk.inj (Except.ok.inj h)
        exact .short hu hshort hs
    next hbackslash =>
    split at h
    · simp at h
    next hcontrol =>
    split at h
    · simp at h
    next s' rest' hs =>
    obtain ⟨rfl, rfl⟩ := Prod.mk.inj (Except.ok.inj h)
    exact .plain ⟨hquote, hbackslash, hcontrol⟩ hs

/-! ## What is spelt inside a string -/

/-- Inside a string a text is read as another one, whatever follows it. -/
def Spells (raw s : Text) : Prop :=
  ∀ start t, readStringFrom start 0 (raw ++ t) =
    (readStringFrom start 0 t).map fun found => (s ++ found.1, found.2)

variable {raw raw' s' u : Text}

theorem spells_nil : Spells [] [] := by
  intro start t
  cases h : readStringFrom start 0 t <;> simp [h, Except.map]

theorem Spells.append (h : Spells raw s) (h' : Spells raw' s') : Spells (raw ++ raw') (s ++ s') := by
  intro start t
  rw [List.append_assoc, h start, h' start]
  cases readStringFrom start 0 t <;> simp [Except.map]

theorem spells_singleton (h : IsPlain c) : Spells [c] [c] := by
  intro start t
  obtain ⟨hquote, hbackslash, hcontrol⟩ := h
  rw [List.singleton_append]
  cases h : readStringFrom start 0 t <;>
    simp only [readStringFrom, if_neg hquote, if_neg hbackslash, if_neg hcontrol, h] <;> rfl

theorem spells_self (h : ∀ c ∈ s, IsPlain c) : Spells s s := by
  induction s with
  | nil => exact spells_nil
  | cons c s ih =>
    obtain ⟨hc, hs⟩ := List.forall_mem_cons.1 h
    exact (spells_singleton hc).append (ih hs)

theorem spells_quote : Spells ("\\\"") ("\"") := by
  intro start t
  have hskip : readStringFrom start 1 (.char '"' :: t) = readStringFrom start 0 t := rfl
  show readStringFrom start 0 (.char '\\' :: .char '"' :: t) = _
  rw [readStringFrom, if_neg (by decide), if_pos rfl]
  simp only [hskip, shortEscape?, if_neg (show ¬ CodePoint.char '"' = .char 'u' by decide)]
  cases readStringFrom start 0 t <;> rfl

/-- What is left after a text has been read is read by itself. -/
theorem Spells.of_append (h : Spells raw s) (hread : readStringFrom start 0 (raw ++ t) = .ok (u, rest)) :
    ∃ v, u = s ++ v ∧ readStringFrom start 0 t = .ok (v, rest) := by
  rw [h start] at hread
  cases ht : readStringFrom start 0 t with
  | error e => simp [ht, Except.map] at hread
  | ok found =>
    rw [ht] at hread
    obtain ⟨rfl, rfl⟩ := Prod.mk.inj (Except.ok.inj hread)
    exact ⟨found.1, rfl, rfl⟩

theorem Spells.read (h : Spells raw s) (hread : readStringFrom start 0 t = .ok (u, rest)) :
    readStringFrom start 0 (raw ++ t) = .ok (s ++ u, rest) := by
  rw [h start, hread]
  rfl

/-! ## Controls -/

theorem hexUnit_append (hlen : ds.length = 4) (ht : t ≠ []) :
    hexUnit? (ds ++ t) = hexUnit? (ds ++ [.char '"']) := by
  obtain ⟨d, t', rfl⟩ := List.exists_cons_of_ne_nil ht
  match ds, hlen with
  | [_, _, _, _], _ => rfl

/-- The four digits of a control are read as its number. -/
theorem hexUnit_control : ∀ n : Fin 32, (Text.ofNatPadded 16 4 n.val).length = 4 ∧
    hexUnit? (Text.ofNatPadded 16 4 n.val ++ [.char '"']) = some n.val := by decide

/-- A control is read from its number. -/
theorem readStringFrom_control (hc : c.val < 0x20)
    (h : readStringFrom start 0 t = .ok (s, rest)) :
    readStringFrom start 0 (.char '\\' :: .char 'u' :: (Text.ofNatPadded 16 4 c.val ++ t)) =
      .ok (c :: s, rest) := by
  obtain ⟨hlen, hhex⟩ := hexUnit_control ⟨c.val, hc⟩
  simp only at hlen hhex
  have ht : t ≠ [] := by
    rintro rfl
    simp [readStringFrom] at h
  rw [← hexUnit_append hlen ht] at hhex
  generalize Text.ofNatPadded 16 4 c.val = ds at hlen hhex ⊢
  have hself : CodePoint.ofNat c.val = c := by
    cases c with
    | char c => exact CodePoint.ofNat_toNat c
    | surrogate k =>
      rw [CodePoint.val] at hc
      omega
  -- a control is no half of a pair, so nothing is read behind its digits
  have hhigh : c.isHighSurrogate = false := by
    rw [CodePoint.isHighSurrogate, decide_eq_false (by omega), Bool.false_and]
  have hescape : readUnicodeEscape (.char 'u' :: (ds ++ t)) = .ok (c, 4) := by
    rw [readUnicodeEscape]
    simp only [List.drop_succ_cons, List.drop_zero, hhex, hself, hhigh]
  refine readStringFrom_numbered hescape ?_
  rwa [← hlen, List.drop_left]

/-! ## Any string -/

/-- A code point is read from what it is written as. -/
theorem readStringFrom_writtenUnit (h : readStringFrom start 0 t = .ok (s, rest)) :
    readStringFrom start 0 (writtenUnit c ++ t) = .ok (c :: s, rest) := by
  unfold writtenUnit
  split
  · next hc => exact readStringFrom_short (by decide) (by rw [hc]; rfl) h
  next hquote =>
  split
  · next hc => exact readStringFrom_short (by decide) (by rw [hc]; rfl) h
  next hbackslash =>
  split
  · next hc => exact readStringFrom_short (by decide) (by rw [hc]; rfl) h
  split
  · next hc => exact readStringFrom_short (by decide) (by rw [hc]; rfl) h
  split
  · next hc => exact readStringFrom_short (by decide) (by rw [hc]; rfl) h
  split
  · next hc => exact readStringFrom_short (by decide) (by rw [hc]; rfl) h
  split
  · next hc => exact readStringFrom_short (by decide) (by rw [hc]; rfl) h
  split
  · next hc => exact readStringFrom_control hc h
  · next hc => exact readStringFrom_plain ⟨hquote, hbackslash, hc⟩ h

theorem readStringFrom_written (start s rest : Text) :
    readStringFrom start 0 (s.flatMap writtenUnit ++ .char '"' :: rest) = .ok (s, rest) := by
  induction s with
  | nil => rfl
  | cons c s ih =>
    rw [List.flatMap_cons, List.append_assoc]
    exact readStringFrom_writtenUnit ih

theorem writeString_append (s t : Text) :
    writeString s ++ t = .char '"' :: (s.flatMap writtenUnit ++ .char '"' :: t) := by
  simp [writeString, Text.ofChar]

/-- What follows the opening quote of a written string is read as the string. -/
theorem readString_written (s rest : Text) :
    readString (s.flatMap writtenUnit ++ .char '"' :: rest) = .ok (s, rest) :=
  readStringFrom_written _ s rest

end WorkflowLint.Json
