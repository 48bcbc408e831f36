import WorkflowLint.Json.Printer
import WorkflowLint.Json.Reader
import WorkflowLint.Proofs.Decimal.Shortest
import WorkflowLint.Proofs.Text.Numeral

/-!
# Numbers read back

A number that was written is read back as the same number, whatever follows it in a written
document: a comma or the end of a line.  Whole numbers are read digit by digit
(`readNumber_integer`).  A real number is laid out in one of four ways, and each of them has the
value of the digits that were laid out (`readsLaidOut`), which are digits of that number.
-/

namespace WorkflowLint.Json

open Text Binary64

/-- What follows a value in a written document starts with a comma or a line feed. -/
inductive Follows : Text → Prop
  | comma (t : Text) : Follows (.char ',' :: t)
  | line (t : Text) : Follows (.char '\n' :: t)

/-- The digits of a whole number: at least one, and a zero only by itself. -/
structure IsWhole (w : Text) : Prop where
  digits : AllDigits w
  nonempty : w ≠ []
  zero : w.head? = some (.char '0') → w = [.char '0']

variable {ds w f t rest : Text}

/-! ## Digits -/

theorem Follows.digits_eq_nil (h : Follows rest) : digits rest = [] := by cases h <;> rfl

theorem Follows.fraction_eq_nil (h : Follows rest) : fraction rest = [] := by cases h <;> rfl

theorem Follows.exponent_eq_none (h : Follows rest) : exponent? rest = none := by cases h <;> rfl

theorem digits_append (h : AllDigits ds) (ht : digits t = []) : digits (ds ++ t) = ds := by
  have htake : (ds ++ t).takeWhile CodePoint.isDigit = ds ++ t.takeWhile CodePoint.isDigit :=
    List.takeWhile_append_of_pos h
  rw [digits, htake, ← digits, ht, List.append_nil]

theorem isWhole_zero : IsWhole [.char '0'] := ⟨allDigits_replicate 1, by decide, fun _ => rfl⟩

theorem isWhole_of_head (h : AllDigits w) (hne : w ≠ []) (hhead : w.head? ≠ some (.char '0')) :
    IsWhole w :=
  ⟨h, hne, fun hz => absurd hz hhead⟩

theorem isWhole_ofNat (n : Nat) : IsWhole (Text.ofNat n) := by
  by_cases hn : n = 0
  · subst hn
    exact isWhole_zero
  · exact isWhole_of_head (allDigits_ofNat n) (ofNat_ne_nil n) (head_ofNat hn)

theorem whole_append (hw : IsWhole w) (ht : digits t = []) : whole (w ++ t) = w := by
  by_cases hz : w.head? = some (.char '0')
  · rw [hw.zero hz]
    rfl
  · have hdig : whole (w ++ t) = digits (w ++ t) := by
      unfold whole
      split
      · next heq =>
        obtain ⟨c, w', rfl⟩ := List.exists_cons_of_ne_nil hw.nonempty
        obtain ⟨rfl, -⟩ := List.cons.inj heq
        exact absurd rfl hz
      · rfl
    rw [hdig, digits_append hw.digits ht]

/-! ## Numbers by their parts -/

theorem IsWhole.isEmpty_eq_false (hw : IsWhole w) : w.isEmpty = false := by
  simpa using hw.nonempty

/-- A whole number with no more digits than the limit is read. -/
theorem readNumber_integer (start : Text) (negative : Bool) (hw : IsWhole w)
    (hlen : w.length ≤ digitLimit) (h : Follows rest) :
    readNumber start negative (w ++ rest) =
      .ok (.integer (if negative then -Text.toNat w else Text.toNat w), rest) := by
  simp only [readNumber, whole_append hw h.digits_eq_nil, hw.isEmpty_eq_false, Bool.false_eq_true,
    if_false, List.drop_left, h.fraction_eq_nil, List.isEmpty_nil, if_true, h.exponent_eq_none]
  exact if_neg (Nat.not_lt.2 hlen)

/-- The digits of a fraction behind their point. -/
theorem fraction_append (hf : AllDigits f) (ht : digits t = []) :
    fraction (.char '.' :: (f ++ t)) = f := digits_append hf ht

/-- A number with digits behind its point is read. -/
theorem readNumber_fraction (start : Text) (negative : Bool) (hw : IsWhole w) (hf : AllDigits f)
    (hne : f ≠ []) (h : Follows rest) :
    readNumber start negative (w ++ .char '.' :: (f ++ rest)) =
      .ok (.real (ofDecimal negative (Text.toNat (w ++ f)) (-f.length)), rest) := by
  have hempty : f.isEmpty = false := by simpa using hne
  have hpoint : digits (.char '.' :: (f ++ rest)) = [] := rfl
  simp only [readNumber, whole_append hw hpoint, hw.isEmpty_eq_false, Bool.false_eq_true, if_false,
    List.drop_left, fraction_append hf h.digits_eq_nil, hempty, List.drop_succ_cons,
    h.exponent_eq_none]

/-- The sign of an exponent. -/
def exponentSign (exponent : Int) : CodePoint := if exponent < 0 then .char '-' else .char '+'

/-- An exponent is read with its sign. -/
theorem exponent_append {exponent : Int} (hds : AllDigits ds) (hne : ds ≠ [])
    (hval : Text.toNat ds = exponent.natAbs) (h : Follows rest) :
    exponent? (.char 'e' :: exponentSign exponent :: (ds ++ rest)) =
      some (exponent, ds.length + 2) := by
  have hempty : ds.isEmpty = false := by simpa using hne
  by_cases hneg : exponent < 0
  · rw [exponentSign, if_pos hneg]
    simp only [exponent?, true_or, if_true, digits_append hds h.digits_eq_nil, hempty,
      Bool.false_eq_true, if_false, hval]
    rw [show -(exponent.natAbs : Int) = exponent by omega]
  · rw [exponentSign, if_neg hneg]
    simp only [exponent?, true_or, if_true, digits_append hds h.digits_eq_nil, hempty,
      Bool.false_eq_true, if_false, hval]
    rw [show (exponent.natAbs : Int) = exponent by omega]

/-- The digits of a fraction with their point, if there are any. -/
def pointed (f : Text) : Text := if f.isEmpty then [] else .char '.' :: f

/-- A number with an exponent is read. -/
theorem readNumber_exponent (start : Text) (negative : Bool) {exponent : Int} (hw : IsWhole w)
    (hf : AllDigits f) (hds : AllDigits ds) (hne : ds ≠ []) (hval : Text.toNat ds = exponent.natAbs)
    (h : Follows rest) :
    readNumber start negative
        (w ++ (pointed f ++ .char 'e' :: exponentSign exponent :: (ds ++ rest))) =
      .ok (.real (ofDecimal negative (Text.toNat (w ++ f)) (exponent - f.length)), rest) := by
  generalize htail : (.char 'e' :: exponentSign exponent :: (ds ++ rest) : Text) = tail
  have hexp : exponent? tail = some (exponent, ds.length + 2) := by
    rw [← htail]
    exact exponent_append hds hne hval h
  have hdrop : tail.drop (ds.length + 2) = rest := by
    rw [← htail]
    exact List.drop_left
  have hdigits : digits tail = [] := by
    rw [← htail]
    rfl
  have hfraction : fraction tail = [] := by
    rw [← htail]
    rfl
  cases hempty : f.isEmpty with
  | true =>
    obtain rfl : f = [] := List.isEmpty_iff.1 hempty
    simp only [pointed, List.isEmpty_nil, if_true, List.nil_append, readNumber,
      whole_append hw hdigits, hw.isEmpty_eq_false, Bool.false_eq_true, if_false, List.drop_left,
      hfraction, hexp, hdrop]
  | false =>
    have hpoint : digits (.char '.' :: (f ++ tail)) = [] := rfl
    simp only [pointed, hempty, Bool.false_eq_true, if_false, List.cons_append, readNumber,
      whole_append hw hpoint, hw.isEmpty_eq_false, List.drop_left, fraction_append hf hdigits,
      List.drop_succ_cons, hexp, hdrop]

/-! ## Layouts -/

theorem decimal_mul_pow (digits k : Nat) (exponent : Int) :
    decimal (digits * 10 ^ k) exponent = decimal digits (exponent + k) := by
  rw [decimal, decimal, Nat.cast_mul, Nat.cast_pow, Nat.cast_ofNat, mul_assoc, ← zpow_natCast,
    ← zpow_add₀ (by norm_num), add_comm]

theorem layOut_leading {l : RealLayout} {point : Int} (h₁ : -4 < point) (h₂ : point ≤ 0) :
    l.layOut ds point =
      [.char '0'] ++ .char '.' :: (List.replicate (-point).toNat (.char '0') ++ ds) := by
  rw [RealLayout.layOut, if_pos ⟨h₁, by omega⟩, if_pos h₂, List.append_assoc]
  rfl

theorem layOut_positional {l : RealLayout} {point : Int} (h₁ : 0 < point) (h₂ : point ≤ 16) :
    l.layOut ds point =
      (ds.take point.toNat ++ List.replicate (point.toNat - ds.length) (.char '0')) ++
        .char '.' ::
          (if (ds.drop point.toNat).isEmpty then [.char '0'] else ds.drop point.toNat) := by
  rw [RealLayout.layOut, if_pos ⟨by omega, h₂⟩, if_neg (by omega)]
  simp only [List.append_assoc]
  rfl

theorem layOut_exponent {point : Int} (h : ¬(-4 < point ∧ point ≤ 16)) :
    RealLayout.json.layOut ds point =
      ds.take 1 ++ (pointed (ds.drop 1) ++
        .char 'e' :: exponentSign (point - 1) :: ofNatPadded 10 2 (point - 1).natAbs) := by
  have hsign : (if point - 1 < 0 then ("-" : Text) else "+") = [exponentSign (point - 1)] := by
    unfold exponentSign
    split <;> rfl
  rw [RealLayout.layOut, if_neg h]
  simp only [hsign, List.append_assoc]
  cases ds.drop 1 <;> rfl

theorem toNat_ofNatPadded (width n : Nat) : Text.toNat (ofNatPadded 10 width n) = n := by
  have hsplit : ofNatPadded 10 width n =
    List.replicate (width - (Text.ofNat n).length) (.char '0') ++ Text.ofNat n := rfl
  rw [hsplit, toNat_append, toNat_replicate_zero, Nat.zero_mul, Nat.zero_add, toNat_ofNat]

theorem ofNatPadded_ne_nil (width n : Nat) : ofNatPadded 10 width n ≠ [] :=
  List.append_ne_nil_of_right_ne_nil _ (ofNat_ne_nil n)

/-- Digits that are laid out are read as a number of the value that they have with their point. -/
def ReadsLaidOut (start : Text) (negative : Bool) (ds : Text) (point : Int) (rest : Text) : Prop :=
  ∃ digits exponent,
    readNumber start negative (RealLayout.json.layOut ds point ++ rest) =
      .ok (.real (ofDecimal negative digits exponent), rest) ∧
    decimal digits exponent = decimal (Text.toNat ds) (point - ds.length)

section

variable {point : Int} (start : Text) (negative : Bool) (hds : AllDigits ds)
  (h : Follows rest)
include hds h

/-- With the point in front, zeros stand between it and the digits. -/
theorem readsLaidOut_leading (hne : ds ≠ []) (h₁ : -4 < point) (h₂ : point ≤ 0) :
    ReadsLaidOut start negative ds point rest := by
  have hf : AllDigits (List.replicate (-point).toNat (.char '0') ++ ds) :=
    allDigits_append.2 ⟨allDigits_replicate _, hds⟩
  have hread := readNumber_fraction start negative isWhole_zero hf (by simp [hne]) h
  unfold ReadsLaidOut
  rw [layOut_leading h₁ h₂, List.append_assoc, List.cons_append]
  refine ⟨_, _, hread, ?_⟩
  rw [toNat_append, toNat_append, toNat_replicate_zero]
  simp only [List.length_append, List.length_replicate]
  congr 1
  · simp [Text.toNat, CodePoint.digitValue]
  · push_cast
    omega

/-- With the point behind some place of the digits, or of the zeros behind them. -/
theorem readsLaidOut_positional (hne : ds ≠ []) (hhead : ds.head? ≠ some (.char '0'))
    (h₁ : 0 < point) (h₂ : point ≤ 16) : ReadsLaidOut start negative ds point rest := by
  obtain ⟨c, t, rfl⟩ := List.exists_cons_of_ne_nil hne
  obtain ⟨hc, ht⟩ := allDigits_cons.1 hds
  obtain ⟨p, hp⟩ : ∃ p : Nat, point = p + 1 := ⟨(point - 1).toNat, by omega⟩
  have hp' : point.toNat = p + 1 := by omega
  unfold ReadsLaidOut
  rw [layOut_positional h₁ h₂, hp', List.take_succ_cons, List.drop_succ_cons]
  have hall : AllDigits (c :: t.take p ++ List.replicate (p + 1 - (c :: t).length) (.char '0')) :=
    allDigits_append.2
      ⟨allDigits_cons.2 ⟨hc, ht.subset (List.take_subset _ _)⟩, allDigits_replicate _⟩
  have hw : IsWhole (c :: t.take p ++ List.replicate (p + 1 - (c :: t).length) (.char '0')) :=
    isWhole_of_head hall (by simp) hhead
  cases hrest : (t.drop p).isEmpty with
  | true =>
    -- all digits stand before the point, and one zero behind it
    have hle : t.length ≤ p := List.drop_eq_nil_iff.1 (List.isEmpty_iff.1 hrest)
    rw [if_pos rfl, List.append_assoc, List.cons_append]
    refine ⟨_, _, readNumber_fraction start negative hw (allDigits_replicate 1) (by simp) h, ?_⟩
    have hval : Text.toNat (c :: t.take p ++ List.replicate (p + 1 - (c :: t).length) (.char '0') ++
        [.char '0']) = Text.toNat (c :: t) * 10 ^ (p - t.length) * 10 ^ 1 := by
      rw [List.take_of_length_le hle, toNat_append, toNat_append, toNat_replicate_zero,
        List.length_replicate, List.length_cons, Nat.add_zero, Nat.add_sub_add_right]
      rfl
    rw [← List.cons_append, hval, decimal_mul_pow, decimal_mul_pow]
    congr 1
    simp only [List.length_cons, List.length_nil]
    omega
  | false =>
    -- the point stands among the digits, and no zeros are needed
    have hlt : p < t.length := by
      by_contra hle
      rw [List.drop_of_length_le (by omega)] at hrest
      simp at hrest
    have hf : AllDigits (t.drop p) := ht.subset (List.drop_subset _ _)
    rw [if_neg Bool.false_ne_true, List.append_assoc, List.cons_append]
    refine ⟨_, _, readNumber_fraction start negative hw hf (by simpa using hlt) h, ?_⟩
    have hzeros : p + 1 - (c :: t).length = 0 := by
      rw [List.length_cons]
      omega
    rw [hzeros, List.replicate_zero, List.append_nil, List.cons_append, List.take_append_drop]
    congr 1
    simp only [List.length_cons, List.length_drop]
    omega

/-- With an exponent, where the point lies far away. -/
theorem readsLaidOut_exponent (hne : ds ≠ []) (hhead : ds.head? ≠ some (.char '0'))
    (hpoint : ¬(-4 < point ∧ point ≤ 16)) : ReadsLaidOut start negative ds point rest := by
  obtain ⟨c, t, rfl⟩ := List.exists_cons_of_ne_nil hne
  obtain ⟨hc, ht⟩ := allDigits_cons.1 hds
  have hw : IsWhole [c] := isWhole_of_head (allDigits_cons.2 ⟨hc, allDigits_nil⟩) (by simp) hhead
  have hread := readNumber_exponent start negative hw ht (allDigits_ofNatPadded 2 _)
    (ofNatPadded_ne_nil _ _) (toNat_ofNatPadded 2 (point - 1).natAbs) h
  unfold ReadsLaidOut
  rw [layOut_exponent hpoint, List.take_succ_cons, List.take_zero, List.drop_succ_cons,
    List.drop_zero, List.append_assoc, List.append_assoc, List.cons_append, List.cons_append]
  refine ⟨_, _, hread, ?_⟩
  rw [List.length_cons]
  congr 1
  push_cast
  omega

theorem readsLaidOut (point : Int) (hne : ds ≠ []) (hhead : ds.head? ≠ some (.char '0')) :
    ReadsLaidOut start negative ds point rest := by
  by_cases hpoint : -4 < point ∧ point ≤ 16
  · by_cases hzero : point ≤ 0
    · exact readsLaidOut_leading start negative hds h hne hpoint.1 hzero
    · exact readsLaidOut_positional start negative hds h hne hhead (not_le.1 hzero) hpoint.2
  · exact readsLaidOut_exponent start negative hds h hne hhead hpoint

end

/-! ## Real numbers -/

theorem exists_append_zeros (ds : Text) :
    ∃ k, ds = RealLayout.dropZeros ds ++ List.replicate k (.char '0') := by
  have hsplit : ds = RealLayout.dropZeros ds ++ (ds.reverse.takeWhile (· == .char '0')).reverse := by
    rw [RealLayout.dropZeros, ← List.reverse_append, List.takeWhile_append_dropWhile,
      List.reverse_reverse]
  refine ⟨(ds.reverse.takeWhile (· == .char '0')).length, hsplit.trans ?_⟩
  congr 1
  refine List.eq_replicate_iff.2 ⟨List.length_reverse, fun c hc => ?_⟩
  have hall := List.all_eq_true.1 (List.all_takeWhile (p := (· == .char '0')) (l := ds.reverse))
  exact beq_iff_eq.1 (hall c (List.mem_reverse.1 hc))

theorem eq_zero_of_mantissa_eq_zero {m : Magnitude} (hm : m.mantissa = 0) (negative : Bool) :
    zero negative = .finite negative m := by
  obtain ⟨mantissa, exponent, hnormal⟩ := m
  obtain rfl : mantissa = 0 := hm
  obtain rfl : exponent = -1074 := hnormal.2.2.2.resolve_left (by decide)
  rfl

/-- The digits of a finite number, laid out, are read as that number. -/
theorem readNumber_renderMagnitude (start : Text) (negative : Bool) (m : Magnitude)
    (h : Follows rest) :
    readNumber start negative (RealLayout.json.renderMagnitude m ++ rest) =
      .ok (.real (.finite negative m), rest) := by
  by_cases hm : m.mantissa = 0
  · have hzero : ofDecimal negative (Text.toNat ([.char '0'] ++ [.char '0'])) (-1) =
        .finite negative m := eq_zero_of_mantissa_eq_zero hm negative
    have hlaid : RealLayout.json.layOut "0" 1 = [.char '0', .char '.', .char '0'] := rfl
    rw [RealLayout.renderMagnitude, if_pos hm, hlaid, ← hzero]
    exact readNumber_fraction start negative isWhole_zero (allDigits_replicate 1)
      (List.cons_ne_nil _ _) h
  · rw [RealLayout.renderMagnitude, if_neg hm]
    have hread := Magnitude.ofDecimal_shortest hm
    have hne₀ := Magnitude.shortest_ne_zero hm
    generalize m.shortest = found at hread hne₀
    obtain ⟨n, e⟩ := found
    simp only at hread hne₀ ⊢
    -- the zeros at the end of the digits are not written, and the point keeps the value
    obtain ⟨k, hk⟩ := exists_append_zeros (Text.ofNat n)
    generalize RealLayout.dropZeros (Text.ofNat n) = ds at hk ⊢
    have hall : AllDigits ds := (allDigits_append.1 (hk ▸ allDigits_ofNat n)).1
    have hval : n = Text.toNat ds * 10 ^ k := by
      have hnat := toNat_ofNat n
      rw [hk, toNat_append, toNat_replicate_zero, List.length_replicate, Nat.add_zero] at hnat
      exact hnat.symm
    have hne : ds ≠ [] := by
      rintro rfl
      exact hne₀ (hval.trans (Nat.zero_mul _))
    have hhead : ds.head? ≠ some (.char '0') := by
      obtain ⟨c, t, rfl⟩ := List.exists_cons_of_ne_nil hne
      have hfirst := head_ofNat hne₀
      rw [hk] at hfirst
      exact hfirst
    obtain ⟨digits, exponent, hlaid, hdec⟩ :=
      readsLaidOut start negative hall h ((Text.ofNat n).length + e) hne hhead
    rw [hlaid]
    have hsame : decimal n e = decimal digits exponent := by
      rw [hdec, hk, List.length_append, List.length_replicate]
      conv_lhs => rw [hval]
      rw [decimal_mul_pow]
      congr 1
      push_cast
      omega
    rw [ofDecimal_sign (ofDecimal_congr hread hm hsame) negative]

end WorkflowLint.Json
