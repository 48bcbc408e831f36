import WorkflowLint.Proofs.Json.RoundTrip
import WorkflowLint.Proofs.Text.LineEnds

/-!
# What printed documents are made of

Numbers are written with digits, signs, points and a few letters (`IsNumeral`).

A document is printed without carriage returns: in its strings they are written as escapes, and
nothing else that is written has any (`noReturn_print`).  So a printed document that is stored in a
file is read from there as it was printed.
-/

namespace WorkflowLint

open Text

/-! ## Numbers -/

/-- A text of digits, signs and points, and of the letters of numbers. -/
def Text.IsNumeral (t : Text) : Prop := ∀ c ∈ t, c.isDigit = true ∨ c ∈ (".+-eINafinty" : Text)

theorem Text.IsNumeral.of_append {s t : Text} (hs : IsNumeral s) (ht : IsNumeral t) : IsNumeral (s ++ t) :=
  List.forall_mem_append.2 ⟨hs, ht⟩

theorem Text.IsNumeral.of_cons {c : CodePoint} {t : Text} (hc : c ∈ (".+-eINafinty" : Text))
    (ht : IsNumeral t) : IsNumeral (c :: t) :=
  List.forall_mem_cons.2 ⟨.inr hc, ht⟩

theorem Text.AllDigits.isNumeral {ds : Text} (h : AllDigits ds) : IsNumeral ds :=
  fun c hc => .inl (h c hc)

/-- A code point that is neither a digit nor one of the others is in no number. -/
theorem Text.IsNumeral.not_mem {c : CodePoint} {t : Text} (h : IsNumeral t) (hdigit : c.isDigit = false)
    (hother : c ∉ (".+-eINafinty" : Text)) : c ∉ t := by
  intro hc
  rcases h c hc with hc | hc
  · rw [hdigit] at hc
    cases hc
  · exact hother hc

theorem RealLayout.isNumeral_layOut {ds : Text} (hds : AllDigits ds) (point : Int) :
    IsNumeral (json.layOut ds point) := by
  have hzeros : ∀ n, IsNumeral (List.replicate n (.char '0')) := fun n =>
    (allDigits_replicate n).isNumeral
  by_cases hpos : -4 < point ∧ point ≤ 16
  · by_cases hzero : point ≤ 0
    · rw [Json.layOut_leading hpos.1 hzero]
      exact (hzeros 1).of_append (.of_cons (by decide) ((hzeros _).of_append hds.isNumeral))
    · rw [Json.layOut_positional (by omega) hpos.2]
      have htake := (hds.subset (List.take_subset point.toNat ds)).isNumeral
      have hdrop := (hds.subset (List.drop_subset point.toNat ds)).isNumeral
      refine (htake.of_append (hzeros _)).of_append (.of_cons (by decide) ?_)
      split
      · exact hzeros 1
      · exact hdrop
  · rw [Json.layOut_exponent hpos]
    have htake := (hds.subset (List.take_subset 1 ds)).isNumeral
    have hdrop := (hds.subset (List.drop_subset 1 ds)).isNumeral
    have hsign : Json.exponentSign (point - 1) ∈ (".+-eINafinty" : Text) := by
      unfold Json.exponentSign
      split <;> decide
    have hpointed : IsNumeral (Json.pointed (ds.drop 1)) := by
      unfold Json.pointed
      split
      · exact List.forall_mem_nil _
      · exact .of_cons (by decide) hdrop
    exact htake.of_append (hpointed.of_append (.of_cons (by decide) (.of_cons hsign
      (allDigits_ofNatPadded 2 _).isNumeral)))

theorem RealLayout.isNumeral_sign (negative : Bool) : IsNumeral (sign negative) := by
  unfold IsNumeral
  cases negative <;> decide

theorem RealLayout.isNumeral_render (x : Binary64) : IsNumeral (json.render x) := by
  cases x with
  | nan =>
    unfold IsNumeral
    decide
  | infinite negative =>
    refine (isNumeral_sign negative).of_append ?_
    unfold IsNumeral
    decide
  | finite negative m =>
    refine (isNumeral_sign negative).of_append ?_
    unfold renderMagnitude
    split
    · exact isNumeral_layOut (allDigits_replicate 1) 1
    · obtain ⟨k, hk⟩ := Json.exists_append_zeros (Text.ofNat m.shortest.1)
      have hdigits : AllDigits (dropZeros (Text.ofNat m.shortest.1)) :=
        (allDigits_append.1 (hk ▸ allDigits_ofNat m.shortest.1)).1
      exact isNumeral_layOut hdigits _

theorem Text.isNumeral_ofInt (n : Int) : IsNumeral (Text.ofInt n) := by
  rw [Json.ofInt_eq]
  exact (RealLayout.isNumeral_sign _).of_append (allDigits_ofNat _).isNumeral

theorem Text.IsNumeral.noReturn {t : Text} (h : IsNumeral t) : NoReturn t := h.not_mem rfl (by decide)

namespace Json

/-! ## Documents -/

/-- The code points of escapes, quotes apart. -/
def escapeUnits : Text := "\\nrtfbu0123456789abcdef"

theorem mem_escapeUnits_of_control :
    ∀ n : Fin 32, ∀ c ∈ Text.ofNatPadded 16 4 n.val, c ∈ escapeUnits := by decide

/-- A code point is written as itself or as an escape, and only a quote with a quote. -/
theorem mem_writtenUnit {c d : CodePoint} (h : d ∈ writtenUnit c) :
    (d = c ∧ IsPlain c) ∨ d ∈ escapeUnits ∨ (d = .char '"' ∧ c = .char '"') := by
  unfold writtenUnit at h
  split at h
  · next hc =>
    rcases List.mem_cons.1 h with rfl | h
    · exact .inr (.inl (by decide))
    · exact .inr (.inr ⟨List.mem_singleton.1 h, hc⟩)
  next hquote =>
  split at h
  · exact .inr (.inl ((show ∀ d ∈ ("\\\\" : Text), d ∈ escapeUnits by decide) d h))
  next hbackslash =>
  split at h
  · exact .inr (.inl ((show ∀ d ∈ ("\\n" : Text), d ∈ escapeUnits by decide) d h))
  split at h
  · exact .inr (.inl ((show ∀ d ∈ ("\\r" : Text), d ∈ escapeUnits by decide) d h))
  split at h
  · exact .inr (.inl ((show ∀ d ∈ ("\\t" : Text), d ∈ escapeUnits by decide) d h))
  split at h
  · exact .inr (.inl ((show ∀ d ∈ ("\\f" : Text), d ∈ escapeUnits by decide) d h))
  split at h
  · exact .inr (.inl ((show ∀ d ∈ ("\\b" : Text), d ∈ escapeUnits by decide) d h))
  split at h
  · next hcontrol =>
    rcases List.mem_append.1 h with h | h
    · exact .inr (.inl ((show ∀ d ∈ ("\\u" : Text), d ∈ escapeUnits by decide) d h))
    · exact .inr (.inl (mem_escapeUnits_of_control ⟨c.val, hcontrol⟩ d h))
  · next hcontrol => exact .inl ⟨List.mem_singleton.1 h, hquote, hbackslash, hcontrol⟩

theorem noReturn_writtenUnit (c : CodePoint) : NoReturn (writtenUnit c) := by
  intro h
  rcases mem_writtenUnit h with ⟨rfl, hplain⟩ | h | ⟨h, -⟩
  · exact absurd hplain (by decide)
  · exact absurd h (by decide)
  · exact absurd h (by decide)

theorem noReturn_writeString (s : Text) : NoReturn (writeString s) := by
  have hunits : NoReturn (s.flatMap writtenUnit) := by
    intro hr
    obtain ⟨c, -, hc⟩ := List.mem_flatMap.1 hr
    exact noReturn_writtenUnit c hc
  exact noReturn_append.2 ⟨noReturn_append.2 ⟨by decide, hunits⟩, by decide⟩

theorem noReturn_newLine (level : Nat) : NoReturn (newLine level) :=
  noReturn_cons.2 ⟨by decide, noReturn_replicate (by decide)⟩

/-- What follows the first item of an array, given what the items are written as. -/
theorem noReturn_writeItems {items : List Json} (level : Nat)
    (h : ∀ v ∈ items, NoReturn (write level v)) : NoReturn (writeItems level items) := by
  induction items with
  | nil => exact noReturn_nil
  | cons v items ih =>
    obtain ⟨hv, hitems⟩ := List.forall_mem_cons.1 h
    have hcomma : NoReturn (",") := by decide
    simp only [writeItems, noReturn_append]
    exact ⟨⟨⟨hcomma, noReturn_newLine level⟩, hv⟩, ih hitems⟩

theorem noReturn_writeMembers {members : Members} (level : Nat)
    (h : ∀ m ∈ members, NoReturn (write level m.2)) : NoReturn (writeMembers level members) := by
  induction members with
  | nil => exact noReturn_nil
  | cons m members ih =>
    obtain ⟨hm, hmembers⟩ := List.forall_mem_cons.1 h
    have hcomma : NoReturn (",") := by decide
    have hcolon : NoReturn (": ") := by decide
    simp only [writeMembers, noReturn_append]
    exact ⟨⟨⟨⟨⟨hcomma, noReturn_newLine level⟩, noReturn_writeString m.1⟩, hcolon⟩, hm⟩,
      ih hmembers⟩

/-- What is written of a value has no carriage return. -/
theorem noReturn_write {depth : Nat} {v : Json} (h : Fits depth v) (level : Nat) :
    NoReturn (write level v) := by
  induction h generalizing level with
  | null => rw [write]; decide
  | bool b => cases b <;> rw [write] <;> decide
  | @integer _ n _ =>
    rw [write]
    exact (isNumeral_ofInt n).noReturn
  | real x =>
    rw [write]
    exact (RealLayout.isNumeral_render x).noReturn
  | string s =>
    rw [write]
    exact noReturn_writeString s
  | @array _ items _ ih =>
    cases items with
    | nil => rw [write]; decide
    | cons item items =>
      obtain ⟨hitem, hitems⟩ := List.forall_mem_cons.1 ih
      have hopen : NoReturn ("[") := by decide
      have hclose : NoReturn ("]") := by decide
      simp only [write, noReturn_append]
      exact ⟨⟨⟨⟨⟨hopen, noReturn_newLine _⟩, hitem _⟩,
        noReturn_writeItems _ fun v hv => hitems v hv _⟩, noReturn_newLine _⟩, hclose⟩
  | @object _ members _ _ ih =>
    cases members with
    | nil => rw [write]; decide
    | cons m members =>
      obtain ⟨hm, hmembers⟩ := List.forall_mem_cons.1 ih
      have hopen : NoReturn ("\x7b") := by decide
      have hcolon : NoReturn (": ") := by decide
      have hclose : NoReturn ("\x7d") := by decide
      simp only [write, noReturn_append]
      exact ⟨⟨⟨⟨⟨⟨⟨hopen, noReturn_newLine _⟩, noReturn_writeString m.1⟩, hcolon⟩, hm _⟩,
        noReturn_writeMembers _ fun m hm => hmembers m hm _⟩, noReturn_newLine _⟩, hclose⟩

/-- A printed document has no carriage return. -/
theorem noReturn_print {depth : Nat} {v : Json} (h : Fits depth v) : NoReturn (print v) :=
  noReturn_append.2 ⟨noReturn_write h 0, by decide⟩

end Json
end WorkflowLint
