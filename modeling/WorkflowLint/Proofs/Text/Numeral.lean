import Mathlib.Algebra.Group.Nat.Defs
import WorkflowLint.Text.Basic

/-!
# Numerals

The decimal numeral of a number is made of digits, starts with a zero only if it is that of zero,
and has the number as its value (`toNat_ofNat`).  Values of numerals that are put together follow
from those of their parts (`toNat_append`).
-/

namespace WorkflowLint.Text

/-- A text of digits. -/
def AllDigits (t : Text) : Prop := ∀ c ∈ t, c.isDigit = true

variable {s t : Text}

@[simp] theorem allDigits_nil : AllDigits [] := fun _ h => absurd h List.not_mem_nil

@[simp] theorem allDigits_cons {c : CodePoint} :
    AllDigits (c :: t) ↔ c.isDigit = true ∧ AllDigits t := List.forall_mem_cons

@[simp] theorem allDigits_append : AllDigits (s ++ t) ↔ AllDigits s ∧ AllDigits t :=
  List.forall_mem_append

theorem AllDigits.subset (h : AllDigits t) (hs : s ⊆ t) : AllDigits s := fun c hc => h c (hs hc)

@[simp] theorem allDigits_replicate (n : Nat) : AllDigits (List.replicate n (.char '0')) := by
  intro c hc
  rw [List.eq_of_mem_replicate hc]
  rfl

/-! ## Values -/

theorem foldl_digits (init : Nat) (t : Text) :
    t.foldl (fun n c => n * 10 + c.digitValue) init = init * 10 ^ t.length + toNat t := by
  induction t generalizing init with
  | nil => simp [toNat]
  | cons c t ih =>
    rw [toNat, List.foldl_cons, List.foldl_cons, ih, ih (0 * 10 + c.digitValue), List.length_cons,
      Nat.zero_mul, Nat.zero_add, Nat.add_mul, Nat.mul_assoc, ← Nat.pow_succ', Nat.add_assoc]

theorem toNat_cons (c : CodePoint) (t : Text) :
    toNat (c :: t) = c.digitValue * 10 ^ t.length + toNat t := by
  rw [toNat, List.foldl_cons, foldl_digits, Nat.zero_mul, Nat.zero_add]

/-- The value of two numerals one after the other. -/
theorem toNat_append (s t : Text) : toNat (s ++ t) = toNat s * 10 ^ t.length + toNat t := by
  rw [toNat, List.foldl_append, foldl_digits]
  rfl

@[simp] theorem toNat_replicate_zero (n : Nat) : toNat (List.replicate n (.char '0')) = 0 := by
  induction n with
  | zero => rfl
  | succ n ih =>
    rw [List.replicate_succ', toNat_append, ih]
    rfl

theorem toNat_map_char (cs : List Char) (init : Nat) :
    (cs.map CodePoint.char).foldl (fun n c => n * 10 + c.digitValue) init =
      Nat.ofDigitChars 10 cs init := by
  induction cs generalizing init with
  | nil => rfl
  | cons c cs ih =>
    rw [List.map_cons, List.foldl_cons, ih, Nat.ofDigitChars_cons, Nat.mul_comm init 10]
    rfl

/-- A number is the value of its numeral. -/
@[simp] theorem toNat_ofNat (n : Nat) : toNat (ofNat n) = n := by
  rw [toNat, ofNat, toNat_map_char, Nat.ofDigitChars_ten_toDigits]

/-! ## Digits -/

theorem allDigits_ofNat (n : Nat) : AllDigits (ofNat n) := by
  intro c hc
  obtain ⟨d, hd, rfl⟩ := List.mem_map.1 hc
  exact Nat.isDigit_of_mem_toDigits (by decide) (by decide) hd

theorem allDigits_ofNatPadded (width n : Nat) : AllDigits (ofNatPadded 10 width n) :=
  allDigits_append.2 ⟨allDigits_replicate _, allDigits_ofNat n⟩

theorem ofNat_ne_nil (n : Nat) : ofNat n ≠ [] := by
  simp [ofNat]

theorem length_ofNat_le_iff {n k : Nat} (hk : 0 < k) : (ofNat n).length ≤ k ↔ n < 10 ^ k := by
  rw [ofNat, List.length_map, Nat.length_toDigits_le_iff (by decide) hk]

theorem digitValue_lt {c : CodePoint} (h : c.isDigit = true) : c.digitValue < 10 := by
  cases c with
  | surrogate k => exact absurd h Bool.false_ne_true
  | char c =>
    have hc : c.toNat ≤ 57 := by
      have hdig : c.isDigit = true := h
      rw [Char.isDigit, Bool.and_eq_true, decide_eq_true_eq, decide_eq_true_eq] at hdig
      exact hdig.2
    rw [CodePoint.digitValue, CodePoint.val_char]
    omega

/-- A text of digits has a value below the power of its length. -/
theorem toNat_lt (h : AllDigits t) : toNat t < 10 ^ t.length := by
  induction t with
  | nil => decide
  | cons c t ih =>
    obtain ⟨hc, ht⟩ := allDigits_cons.1 h
    calc toNat (c :: t) = c.digitValue * 10 ^ t.length + toNat t := toNat_cons c t
      _ < c.digitValue * 10 ^ t.length + 10 ^ t.length := Nat.add_lt_add_left (ih ht) _
      _ = (c.digitValue + 1) * 10 ^ t.length := by rw [Nat.succ_mul]
      _ ≤ 10 * 10 ^ t.length := Nat.mul_le_mul_right _ (digitValue_lt hc)
      _ = 10 ^ (c :: t).length := by rw [List.length_cons, Nat.pow_succ']

/-- The numeral of a number other than zero does not start with a zero. -/
theorem head_ofNat {n : Nat} (hn : n ≠ 0) : (ofNat n).head? ≠ some (.char '0') := by
  induction n using Nat.strongRecOn with
  | _ n ih =>
    by_cases hlt : n < 10
    · rw [ofNat, Nat.toDigits_of_lt_base hlt]
      simp [hn]
    · have hdiv : n / 10 ≠ 0 := by omega
      have hhead := ih (n / 10) (by omega) hdiv
      have hsplit : ofNat n = ofNat (n / 10) ++ [.char (n % 10).digitChar] := by
        rw [ofNat, Nat.toDigits_of_base_le (by decide) (by omega), List.map_append]
        rfl
      obtain ⟨c, t, hcons⟩ := List.exists_cons_of_ne_nil (ofNat_ne_nil (n / 10))
      rw [hcons] at hhead
      rw [hsplit, hcons]
      exact hhead

end WorkflowLint.Text
