import Mathlib.Algebra.Order.Field.Power
import Mathlib.Data.Int.Log
import Mathlib.Data.Rat.Floor
import Mathlib.Tactic.FieldSimp
import Mathlib.Tactic.Linarith
import Mathlib.Tactic.NormNum
import Mathlib.Tactic.Positivity
import Mathlib.Tactic.Ring
import WorkflowLint.Decimal.Binary64

/-!
# Rounding hangs on the value alone

A fraction is rounded by the binary logarithm of its value (`exponentOf_eq`) and by a quotient in
which common factors cancel, so that two fractions of one value are rounded alike
(`ofRatio_congr`).  The same holds of two decimals of one value, provided that this value is not so
large or so small that one of them is settled without its power (`ofDecimal_congr`).
-/

namespace WorkflowLint.Binary64

/-! ## Fractions of one value -/

/-- A power with an integer exponent as the quotient of two with natural ones. -/
theorem zpow_eq_div (a : ℚ) (e : Int) :
    a ^ e = a ^ e.toNat / a ^ (-e).toNat := by
  rcases Int.le_total 0 e with h | h
  · have hz : (-e).toNat = 0 := by omega
    rw [hz, pow_zero, div_one, ← zpow_natCast, Int.toNat_of_nonneg h]
  · have hz : e.toNat = 0 := by omega
    rw [hz, pow_zero, ← zpow_natCast, Int.toNat_of_nonneg (by omega), zpow_neg, one_div, inv_inv]

theorem scaleDown_snd_pos (num : Nat) {den : Nat} (hd : 0 < den) (e : Int) :
    0 < (scaleDown num den e).2 :=
  Nat.mul_pos hd (Nat.pow_pos (by decide))

/-- Scaling divides the value by the power of two. -/
theorem scaleDown_div (num den : Nat) (e : Int) :
    ((scaleDown num den e).1 : ℚ) / (scaleDown num den e).2 = (num : ℚ) / den / 2 ^ e := by
  rw [zpow_eq_div 2 e]
  simp only [scaleDown, Nat.pow_eq, Nat.cast_mul, Nat.cast_pow, Nat.cast_ofNat]
  field_simp

theorem roundQuotient_mul_right (n d : Nat) {c : Nat} (hc : 0 < c) :
    roundQuotient (n * c) (d * c) = roundQuotient n d := by
  have hlt : d * c < 2 * (n % d * c) ↔ d < 2 * (n % d) := by
    rw [← Nat.mul_assoc, Nat.mul_lt_mul_right hc]
  have heq : 2 * (n % d * c) = d * c ↔ 2 * (n % d) = d := by
    rw [← Nat.mul_assoc, Nat.mul_left_inj (Nat.ne_of_gt hc)]
  simp only [roundQuotient, Nat.mul_div_mul_right n d hc, Nat.mul_mod_mul_right, gt_iff_lt, hlt, heq]

/-- Fractions of one value are rounded to the same number. -/
theorem roundQuotient_congr {n d n' d' : Nat} (hd : 0 < d) (hd' : 0 < d')
    (h : (n : ℚ) / d = (n' : ℚ) / d') : roundQuotient n d = roundQuotient n' d' := by
  have hq : (d : ℚ) ≠ 0 := by exact_mod_cast hd.ne'
  have hq' : (d' : ℚ) ≠ 0 := by exact_mod_cast hd'.ne'
  have hcross : n * d' = n' * d := by
    rw [div_eq_div_iff hq hq'] at h
    exact_mod_cast h
  rw [← roundQuotient_mul_right n d hd', hcross, Nat.mul_comm d d', roundQuotient_mul_right n' d' hd]

/-- The binary logarithm of what lies between two neighbouring powers. -/
theorem log_eq {q : ℚ} {k : Int} (h₁ : (2 : ℚ) ^ k ≤ q) (h₂ : q < 2 ^ (k + 1)) : Int.log 2 q = k := by
  have hq : 0 < q := lt_of_lt_of_le (by positivity) h₁
  have hle : k ≤ Int.log 2 q := (Int.zpow_le_iff_le_log (by decide) hq).1 (by exact_mod_cast h₁)
  have hlt : Int.log 2 q < k + 1 := (Int.lt_zpow_iff_log_lt (by decide) hq).1 (by exact_mod_cast h₂)
  omega

/-- The value of a fraction lies within a factor of two around the quotient of the powers below its
parts. -/
theorem log2_bounds {num den : Nat} (hn : 0 < num) (hd : 0 < den) :
    (2 : ℚ) ^ ((Nat.log2 num : Int) - Nat.log2 den - 1) ≤ num / den ∧
      (num : ℚ) / den < 2 ^ ((Nat.log2 num : Int) - Nat.log2 den + 1) := by
  have hdq : (0 : ℚ) < den := by exact_mod_cast hd
  have hn₁ : (2 : ℚ) ^ Nat.log2 num ≤ num := by exact_mod_cast Nat.log2_self_le hn.ne'
  have hn₂ : (num : ℚ) < 2 ^ (Nat.log2 num + 1) := by exact_mod_cast Nat.lt_log2_self
  have hd₁ : (2 : ℚ) ^ Nat.log2 den ≤ den := by exact_mod_cast Nat.log2_self_le hd.ne'
  have hd₂ : (den : ℚ) < 2 ^ (Nat.log2 den + 1) := by exact_mod_cast Nat.lt_log2_self
  generalize Nat.log2 num = a at hn₁ hn₂ ⊢
  generalize Nat.log2 den = b at hd₁ hd₂ ⊢
  constructor
  · rw [le_div_iff₀ hdq]
    calc (2 : ℚ) ^ ((a : Int) - b - 1) * den
        ≤ 2 ^ ((a : Int) - b - 1) * 2 ^ (b + 1) := by gcongr
      _ = 2 ^ a := by
        rw [← zpow_natCast, ← zpow_natCast, ← zpow_add₀ two_ne_zero]
        congr 1
        omega
      _ ≤ num := hn₁
  · rw [div_lt_iff₀ hdq]
    calc (num : ℚ) < 2 ^ (a + 1) := hn₂
      _ = 2 ^ ((a : Int) - b + 1) * 2 ^ b := by
        rw [← zpow_natCast, ← zpow_natCast, ← zpow_add₀ two_ne_zero]
        congr 1
        omega
      _ ≤ 2 ^ ((a : Int) - b + 1) * den := by gcongr

/-- A scaled quotient is below a power exactly when the value is so before scaling. -/
theorem scaleDown_lt_iff (num : Nat) {den : Nat} (hd : 0 < den) (e : Int) :
    (scaleDown num den (e - 53)).1 / (scaleDown num den (e - 53)).2 < Nat.pow 2 53 ↔
      (num : ℚ) / den < 2 ^ e := by
  have hpos := scaleDown_snd_pos num hd (e - 53)
  have hscale := scaleDown_div num den (e - 53)
  generalize scaleDown num den (e - 53) = nd at hpos hscale ⊢
  have hposq : (0 : ℚ) < nd.2 := by exact_mod_cast hpos
  have hsplit : (2 : ℚ) ^ e = 2 ^ 53 * 2 ^ (e - 53) := by
    rw [← zpow_natCast, ← zpow_add₀ two_ne_zero]
    congr 1
    omega
  rw [Nat.div_lt_iff_lt_mul hpos, hsplit, ← div_lt_iff₀ (by positivity), ← hscale,
    div_lt_iff₀ hposq]
  exact_mod_cast Iff.rfl

/-- The exponent of a fraction follows from the binary logarithm of its value. -/
theorem exponentOf_eq {num den : Nat} (hn : 0 < num) (hd : 0 < den) :
    exponentOf num den = max (-1074) (Int.log 2 ((num : ℚ) / den) - 52) := by
  obtain ⟨hlow, hhigh⟩ := log2_bounds hn hd
  have hscaled := scaleDown_lt_iff num hd ((Nat.log2 num : Int) - Nat.log2 den)
  rw [exponentOf]
  simp only
  split
  · next h =>
    rw [log_eq hlow (by simpa using hscaled.1 h)]
    congr 1
    omega
  · next h =>
    rw [log_eq (not_lt.1 fun hlt => h (hscaled.2 hlt)) hhigh]
    congr 1
    omega

/-- Fractions of one value are read as the same number. -/
theorem ofRatio_congr (negative : Bool) {num den num' den' : Nat} (hd : 0 < den) (hd' : 0 < den')
    (h : (num : ℚ) / den = (num' : ℚ) / den') :
    ofRatio negative num den = ofRatio negative num' den' := by
  have hdq : (den : ℚ) ≠ 0 := by exact_mod_cast hd.ne'
  have hdq' : (den' : ℚ) ≠ 0 := by exact_mod_cast hd'.ne'
  have hzero : num = 0 ↔ num' = 0 := by
    rw [← Nat.cast_eq_zero (R := ℚ), ← Nat.cast_eq_zero (R := ℚ) (n := num')]
    rw [div_eq_div_iff hdq hdq'] at h
    constructor
    · intro hz
      simpa [hz, hdq] using h.symm
    · intro hz
      simpa [hz, hdq'] using h
  unfold ofRatio
  by_cases hn : num = 0
  · rw [if_pos hn, if_pos (hzero.1 hn)]
  · have hn' : num' ≠ 0 := fun hz => hn (hzero.2 hz)
    have hexp : exponentOf num den = exponentOf num' den' := by
      rw [exponentOf_eq (Nat.pos_of_ne_zero hn) hd, exponentOf_eq (Nat.pos_of_ne_zero hn') hd', h]
    have hround := roundQuotient_congr (scaleDown_snd_pos num hd (exponentOf num' den'))
      (scaleDown_snd_pos num' hd' (exponentOf num' den')) (by rw [scaleDown_div, scaleDown_div, h])
    simp only [if_neg hn, if_neg hn', hexp, hround]

/-! ## How large a number is that is read -/

theorem ofParts_eq_finite {negative s : Bool} {mantissa : Nat} {exponent : Int} {m : Magnitude}
    (h : ofParts negative mantissa exponent = .finite s m) :
    m.mantissa = mantissa ∧ m.exponent = exponent := by
  unfold ofParts at h
  split at h
  · obtain ⟨-, rfl⟩ := Binary64.finite.inj h
    exact ⟨rfl, rfl⟩
  · simp at h

theorem le_two_mul_of_roundQuotient_ne_zero {n d : Nat} (h : roundQuotient n d ≠ 0) : d ≤ 2 * n := by
  by_contra hlt
  refine h ?_
  have hdiv : n / d = 0 := Nat.div_eq_of_lt (by omega)
  have hmod : n % d = n := Nat.mod_eq_of_lt (by omega)
  rw [roundQuotient, hdiv, hmod]
  exact if_neg (by omega)

/-- A fraction that is read as a number other than zero is neither very large nor very small. -/
theorem bounds_of_ofRatio {negative s : Bool} {num den : Nat} {m : Magnitude} (hd : 0 < den)
    (h : ofRatio negative num den = .finite s m) (hm : m.mantissa ≠ 0) :
    (2 : ℚ) ^ (-1075 : Int) ≤ num / den ∧ (num : ℚ) / den < 2 ^ (1024 : Int) := by
  have hdq : (0 : ℚ) < den := by exact_mod_cast hd
  have hn : num ≠ 0 := by
    rintro rfl
    rw [ofRatio, if_pos rfl, zero] at h
    obtain ⟨-, rfl⟩ := Binary64.finite.inj h
    exact hm rfl
  have hexp := exponentOf_eq (Nat.pos_of_ne_zero hn) hd
  have hpos : (0 : ℚ) < num / den := div_pos (by exact_mod_cast Nat.pos_of_ne_zero hn) hdq
  have hscale := scaleDown_div num den (exponentOf num den)
  have hsnd := scaleDown_snd_pos num hd (exponentOf num den)
  simp only [ofRatio, if_neg hn] at h
  generalize scaleDown num den (exponentOf num den) = nd at h hscale hsnd
  have hsndq : (0 : ℚ) < nd.2 := by exact_mod_cast hsnd
  -- either way the exponent is within the format, and the rounded quotient is not zero
  obtain ⟨hle, hne⟩ : exponentOf num den ≤ 971 ∧ roundQuotient nd.1 nd.2 ≠ 0 := by
    have hnormal := m.normal
    split at h
    · next hq =>
      obtain ⟨-, he⟩ := ofParts_eq_finite h
      exact ⟨by omega, by rw [hq]; decide⟩
    · obtain ⟨hmant, he⟩ := ofParts_eq_finite h
      exact ⟨by omega, hmant ▸ hm⟩
  constructor
  · have hhalf : (1 : ℚ) / 2 ≤ num / den / 2 ^ exponentOf num den := by
      have htwo : (nd.2 : ℚ) ≤ 2 * nd.1 := by
        exact_mod_cast le_two_mul_of_roundQuotient_ne_zero hne
      rw [← hscale, div_le_div_iff₀ two_pos hsndq]
      linarith
    have hlow : (2 : ℚ) ^ (-1074 : Int) ≤ 2 ^ exponentOf num den :=
      zpow_le_zpow_right₀ (by norm_num) (by omega)
    calc (2 : ℚ) ^ (-1075 : Int) = 1 / 2 * 2 ^ (-1074 : Int) := by
          rw [one_div, ← zpow_neg_one, ← zpow_add₀ two_ne_zero]
          rfl
      _ ≤ num / den / 2 ^ exponentOf num den * 2 ^ exponentOf num den := by gcongr
      _ = num / den := by field_simp
  · have hlog : Int.log 2 ((num : ℚ) / den) < 1024 := by omega
    exact_mod_cast (Int.lt_zpow_iff_log_lt (by decide) hpos).2 hlog

/-! ## Decimals of one value -/

/-- The value of a decimal. -/
def decimal (digits : Nat) (exponent : Int) : ℚ := digits * 10 ^ exponent

theorem decimal_eq_div (digits : Nat) (exponent : Int) :
    decimal digits exponent =
      ((digits * Nat.pow 10 exponent.toNat : Nat) : ℚ) / (Nat.pow 10 (-exponent).toNat : Nat) := by
  rw [decimal, zpow_eq_div 10 exponent]
  simp only [Nat.pow_eq, Nat.cast_mul, Nat.cast_pow, Nat.cast_ofNat]
  ring

/-- The decimal is not settled without its power. -/
def Moderate (digits : Nat) (exponent : Int) : Prop :=
  digits ≠ 0 ∧ exponent ≤ 400 ∧ -400 - (Nat.log2 digits : Int) ≤ exponent

theorem ofDecimal_of_moderate {digits : Nat} {exponent : Int} (h : Moderate digits exponent)
    (negative : Bool) :
    ofDecimal negative digits exponent =
      ofRatio negative (digits * Nat.pow 10 exponent.toNat) (Nat.pow 10 (-exponent).toNat) := by
  obtain ⟨h₀, h₁, h₂⟩ := h
  rw [ofDecimal, if_neg h₀, if_neg (by omega), if_neg (by omega)]

/-- What is read as a number other than zero was read by its power. -/
theorem moderate_of_ofDecimal {negative s : Bool} {digits : Nat} {exponent : Int} {m : Magnitude}
    (h : ofDecimal negative digits exponent = .finite s m) (hm : m.mantissa ≠ 0) :
    Moderate digits exponent := by
  have hzero : zero negative ≠ .finite s m := by
    intro hz
    obtain ⟨-, rfl⟩ := Binary64.finite.inj hz
    exact hm rfl
  unfold ofDecimal at h
  split at h
  · exact absurd h hzero
  next h₀ =>
  split at h
  · simp at h
  next h₁ =>
  split at h
  · exact absurd h hzero
  next h₂ => exact ⟨h₀, by omega, by omega⟩

theorem two_pow_le_ten_pow : 2 ^ 1024 ≤ 10 ^ 401 := by decide +kernel

theorem two_pow_lt_ten_pow : 2 ^ 1075 < 10 ^ 400 := by decide +kernel

/-- A decimal that is neither very large nor very small is read by its power. -/
theorem moderate_of_bounds {digits : Nat} {exponent : Int}
    (h₁ : (2 : ℚ) ^ (-1075 : Int) ≤ decimal digits exponent)
    (h₂ : decimal digits exponent < 2 ^ (1024 : Int)) : Moderate digits exponent := by
  have h₀ : digits ≠ 0 := by
    rintro rfl
    rw [decimal, Nat.cast_zero, zero_mul] at h₁
    exact absurd h₁ (not_le.2 (by positivity))
  refine ⟨h₀, ?_, ?_⟩
  · by_contra hlt
    have hone : (1 : ℚ) ≤ digits := by exact_mod_cast Nat.pos_of_ne_zero h₀
    have hbig : (2 : ℚ) ^ (1024 : Int) ≤ decimal digits exponent := by
      calc (2 : ℚ) ^ (1024 : Int) ≤ 10 ^ (401 : Int) := by
            exact_mod_cast two_pow_le_ten_pow
        _ ≤ 10 ^ exponent := zpow_le_zpow_right₀ (by norm_num) (by omega)
        _ ≤ digits * 10 ^ exponent := le_mul_of_one_le_left (by positivity) hone
    exact absurd h₂ (not_lt.2 hbig)
  · by_contra hlt
    have hlog : (digits : ℚ) < 10 ^ (Nat.log2 digits + 1) := by
      calc (digits : ℚ) < 2 ^ (Nat.log2 digits + 1) := by exact_mod_cast Nat.lt_log2_self
        _ ≤ 10 ^ (Nat.log2 digits + 1) := by gcongr; norm_num
    have hsmall : decimal digits exponent < 2 ^ (-1075 : Int) := by
      calc (digits : ℚ) * 10 ^ exponent
          ≤ digits * 10 ^ (-401 - (Nat.log2 digits : Int)) := by
            gcongr
            · norm_num
            · omega
        _ < 10 ^ (Nat.log2 digits + 1) * 10 ^ (-401 - (Nat.log2 digits : Int)) := by gcongr
        _ = 10 ^ (-400 : Int) := by
            rw [← zpow_natCast, ← zpow_add₀ (by norm_num)]
            congr 1
            omega
        _ < 2 ^ (-1075 : Int) := by
            rw [zpow_neg, zpow_neg]
            exact inv_strictAnti₀ (by positivity) (by exact_mod_cast two_pow_lt_ten_pow)
    exact absurd h₁ (not_le.2 hsmall)

/-- Decimals of one value are read as the same number, if that is finite and not zero. -/
theorem ofDecimal_congr {negative s : Bool} {digits digits' : Nat} {exponent exponent' : Int}
    {m : Magnitude} (h : ofDecimal negative digits exponent = .finite s m) (hm : m.mantissa ≠ 0)
    (hval : decimal digits exponent = decimal digits' exponent') :
    ofDecimal negative digits' exponent' = .finite s m := by
  have hmod := moderate_of_ofDecimal h hm
  rw [ofDecimal_of_moderate hmod] at h
  have hden : ∀ e : Int, 0 < Nat.pow 10 (-e).toNat := fun e => Nat.pow_pos (by decide)
  obtain ⟨hlow, hhigh⟩ := bounds_of_ofRatio (hden exponent) h hm
  rw [← decimal_eq_div] at hlow hhigh
  have hmod' : Moderate digits' exponent' := moderate_of_bounds (hval ▸ hlow) (hval ▸ hhigh)
  rw [ofDecimal_of_moderate hmod', ← h]
  refine ofRatio_congr negative (hden exponent') (hden exponent) ?_
  rw [← decimal_eq_div, ← decimal_eq_div, hval]

/-! ## Signs -/

theorem ofParts_negate (mantissa : Nat) (exponent : Int) :
    ofParts true mantissa exponent = (ofParts false mantissa exponent).negate := by
  unfold ofParts
  split <;> rfl

theorem ofRatio_negate (num den : Nat) :
    ofRatio true num den = (ofRatio false num den).negate := by
  unfold ofRatio
  split
  · rfl
  · simp only
    split <;> exact ofParts_negate _ _

theorem ofDecimal_negate (digits : Nat) (exponent : Int) :
    ofDecimal true digits exponent = (ofDecimal false digits exponent).negate := by
  unfold ofDecimal
  split
  · rfl
  split
  · rfl
  split
  · rfl
  · exact ofRatio_negate _ _

/-- A number is read with the sign that is written before it. -/
theorem ofDecimal_sign {digits : Nat} {exponent : Int} {m : Magnitude}
    (h : ofDecimal false digits exponent = .finite false m) (negative : Bool) :
    ofDecimal negative digits exponent = .finite negative m := by
  cases negative with
  | false => exact h
  | true => rw [ofDecimal_negate, h, negate, Bool.not_false]

end WorkflowLint.Binary64
