import WorkflowLint.Decimal.Shortest
import WorkflowLint.Proofs.Decimal.Binary64

/-!
# The shortest decimal reads back

The decimal with which a number is written is read as that number (`ofDecimal_shortest`): a decimal
of a grid because it was taken for that, and the one that is written out in full because it has the
value of the number (`ofDecimal_exact`).
-/

namespace WorkflowLint.Magnitude

open Binary64

/-! ## A decimal of the number's own value -/

/-- The value of a number. -/
def value (m : Magnitude) : ℚ := m.mantissa * 2 ^ m.exponent

variable {m : Magnitude}

theorem value_bounds (hm : m.mantissa ≠ 0) :
    (2 : ℚ) ^ (-1075 : Int) ≤ m.value ∧ m.value < 2 ^ (1024 : Int) := by
  obtain ⟨hlt, hlow, hhigh, -⟩ := m.normal
  have hone : (1 : ℚ) ≤ m.mantissa := by exact_mod_cast Nat.pos_of_ne_zero hm
  have hltq : (m.mantissa : ℚ) < 2 ^ (53 : Int) := by exact_mod_cast hlt
  constructor
  · calc (2 : ℚ) ^ (-1075 : Int) ≤ 2 ^ m.exponent := zpow_le_zpow_right₀ (by norm_num) (by omega)
      _ ≤ m.mantissa * 2 ^ m.exponent := le_mul_of_one_le_left (by positivity) hone
  · calc (m.mantissa : ℚ) * 2 ^ m.exponent < 2 ^ (53 : Int) * 2 ^ m.exponent := by gcongr
      _ = 2 ^ (53 + m.exponent) := (zpow_add₀ two_ne_zero _ _).symm
      _ ≤ 2 ^ (1024 : Int) := zpow_le_zpow_right₀ (by norm_num) (by omega)

/-- The logarithm of a number gives its exponent back. -/
theorem max_log_value (hm : m.mantissa ≠ 0) :
    max (-1074) (Int.log 2 m.value - 52) = m.exponent := by
  obtain ⟨hlt, hlow, -, hnormal⟩ := m.normal
  have hpos : 0 < m.value := lt_of_lt_of_le (by positivity) (value_bounds hm).1
  by_cases hbig : Nat.pow 2 52 ≤ m.mantissa
  · have hge : (2 : ℚ) ^ (52 + m.exponent) ≤ m.value := by
      rw [zpow_add₀ two_ne_zero, value]
      gcongr
      exact_mod_cast hbig
    have hltv : m.value < 2 ^ (52 + m.exponent + 1) := by
      rw [add_right_comm, zpow_add₀ two_ne_zero, value]
      gcongr
      exact_mod_cast hlt
    rw [log_eq hge hltv]
    omega
  · have hexp : m.exponent = -1074 := hnormal.resolve_left hbig
    have hltv : m.value < 2 ^ (52 + m.exponent) := by
      rw [zpow_add₀ two_ne_zero, value]
      gcongr
      exact_mod_cast Nat.lt_of_not_le hbig
    have hlog : Int.log 2 m.value < 52 + m.exponent :=
      (Int.lt_zpow_iff_log_lt (by decide) hpos).1 (by exact_mod_cast hltv)
    omega

theorem roundQuotient_mul (k : Nat) {d : Nat} (hd : 0 < d) : roundQuotient (k * d) d = k := by
  rw [roundQuotient, Nat.mul_div_cancel k hd, Nat.mul_mod_left]
  exact if_neg (by omega)

/-- A decimal of the value of a number is read as that number. -/
theorem ofDecimal_exact (hm : m.mantissa ≠ 0) {digits : Nat} {exponent : Int}
    (hval : decimal digits exponent = m.value) :
    ofDecimal false digits exponent = .finite false m := by
  obtain ⟨hlow, hhigh⟩ := value_bounds hm
  have hmod : Moderate digits exponent := moderate_of_bounds (hval ▸ hlow) (hval ▸ hhigh)
  have hden : 0 < Nat.pow 10 (-exponent).toNat := Nat.pow_pos (by decide)
  have hnum : 0 < digits * Nat.pow 10 exponent.toNat :=
    Nat.mul_pos (Nat.pos_of_ne_zero hmod.1) (Nat.pow_pos (by decide))
  rw [ofDecimal_of_moderate hmod]
  rw [decimal_eq_div] at hval
  generalize digits * Nat.pow 10 exponent.toNat = num at hnum hval ⊢
  generalize Nat.pow 10 (-exponent).toNat = den at hden hval ⊢
  have hexp : exponentOf num den = m.exponent := by
    rw [exponentOf_eq hnum hden, hval, max_log_value hm]
  have hscale := scaleDown_div num den m.exponent
  have hsnd := scaleDown_snd_pos num hden m.exponent
  rw [ofRatio, if_neg (Nat.ne_of_gt hnum)]
  simp only [hexp]
  generalize scaleDown num den m.exponent = nd at hscale hsnd ⊢
  -- the scaled fraction is the mantissa itself
  have hquot : (nd.1 : ℚ) / nd.2 = m.mantissa := by
    rw [hscale, hval, value, mul_div_assoc, div_self (by positivity), mul_one]
  have hfst : nd.1 = m.mantissa * nd.2 := by
    rw [div_eq_iff (by exact_mod_cast hsnd.ne')] at hquot
    exact_mod_cast hquot
  have hround : roundQuotient nd.1 nd.2 = m.mantissa := by rw [hfst, roundQuotient_mul _ hsnd]
  rw [hround, if_neg (Nat.ne_of_lt m.normal.1), ofParts, dif_pos m.normal]

/-! ## The decimal with which a number is written -/

theorem readsAs_iff {x : Magnitude} {digits : Nat} {exponent : Int} :
    x.readsAs digits exponent = true ↔ ofDecimal false digits exponent = .finite false x := by
  rw [readsAs, beq_iff_eq]

theorem readsAs_of_onGrid {x : Magnitude} {k : Int} {digits : Nat} (h : x.onGrid? k = some digits) :
    x.readsAs digits k = true := by
  unfold onGrid? at h
  simp only at h
  split at h
  · simp at h
  · next hlow _ =>
    obtain rfl := Option.some.inj h
    exact hlow
  · next _ hhigh =>
    obtain rfl := Option.some.inj h
    exact hhigh
  · next hlow hhigh =>
    split at h
    · obtain rfl := Option.some.inj h
      exact hlow
    · obtain rfl := Option.some.inj h
      exact hhigh
    · split at h
      · obtain rfl := Option.some.inj h
        exact hlow
      · obtain rfl := Option.some.inj h
        exact hhigh

theorem decimal_written_out (m : Magnitude) :
    decimal (m.mantissa * Nat.pow 2 m.exponent.toNat * Nat.pow 5 (-m.exponent).toNat)
      (min m.exponent 0) = m.value := by
  rw [decimal, value, zpow_eq_div 2 m.exponent]
  simp only [Nat.pow_eq, Nat.cast_mul, Nat.cast_pow, Nat.cast_ofNat]
  have hmin : (10 : ℚ) ^ min m.exponent 0 =
      1 / (5 ^ (-m.exponent).toNat * 2 ^ (-m.exponent).toNat) := by
    rw [← mul_pow, zpow_eq_div]
    have h₁ : (min m.exponent 0).toNat = 0 := by omega
    have h₂ : (-(min m.exponent 0)).toNat = (-m.exponent).toNat := by omega
    rw [h₁, h₂]
    norm_num
  rw [hmin]
  field_simp

/-- The decimal with which a number other than zero is written is read as that number. -/
theorem ofDecimal_shortest (hm : m.mantissa ≠ 0) :
    ofDecimal false m.shortest.1 m.shortest.2 = .finite false m := by
  unfold shortest
  simp only
  split
  · next found hfound =>
    obtain ⟨n, -, hn⟩ := List.exists_of_findSome?_eq_some hfound
    obtain ⟨digits, hgrid, rfl⟩ := Option.map_eq_some_iff.1 hn
    exact readsAs_iff.1 (readsAs_of_onGrid hgrid)
  · exact ofDecimal_exact hm (decimal_written_out m)

theorem shortest_ne_zero (hm : m.mantissa ≠ 0) : m.shortest.1 ≠ 0 :=
  (moderate_of_ofDecimal (ofDecimal_shortest hm) hm).1

end WorkflowLint.Magnitude
