import Phrasebook.Proofs.Number.Nearest
import Phrasebook.Proofs.Number.Shortest

/-!
# Values of decimals

The nearest double to a decimal depends on the number that the decimal spells, and not on how it is
spelled: a quotient is rounded in the same way in lower and in higher terms, and the order of a
decimal can be told from its value. The nearest double is zero up to half a unit.
-/

namespace Phrasebook.Double

/-! ### Fractions -/

/-- A common factor does not change how a quotient is rounded. -/
theorem roundQuotient_mul_left {k : Nat} (hk : 0 < k) (n d : Nat) :
    roundQuotient (k * n) (k * d) = roundQuotient n d := by
  have hmore : k * d < 2 * (k * (n % d)) ↔ d < 2 * (n % d) := by
    rw [Nat.mul_left_comm, Nat.mul_lt_mul_left hk]
  have hhalf : 2 * (k * (n % d)) = k * d ↔ 2 * (n % d) = d := by
    rw [Nat.mul_left_comm, Nat.mul_right_inj hk.ne']
  simp only [roundQuotient, Nat.mul_div_mul_left _ _ hk, Nat.mul_mod_mul_left, hmore, hhalf]

theorem roundUnits_mul_left {k : Nat} (hk : 0 < k) (n d : Nat) :
    roundUnits (k * n) (k * d) = roundUnits n d := by
  rw [roundUnits, roundUnits]
  simp only [Nat.mul_div_mul_left _ _ hk, Nat.mul_assoc, roundQuotient_mul_left hk]

/-- Equal fractions are rounded to the same count of units. -/
theorem roundUnits_congr {n d m e : Nat} (hd : 0 < d) (he : 0 < e)
    (h : (n : ℚ) / d = m / e) : roundUnits n d = roundUnits m e := by
  have hd' : (d : ℚ) ≠ 0 := by exact_mod_cast hd.ne'
  have he' : (e : ℚ) ≠ 0 := by exact_mod_cast he.ne'
  have hcross : e * n = d * m := by
    rw [div_eq_div_iff hd' he', mul_comm (n : ℚ), mul_comm (m : ℚ)] at h
    exact_mod_cast h
  rw [← roundUnits_mul_left he n d, ← roundUnits_mul_left hd m e, hcross, Nat.mul_comm e d]

theorem roundQuotient_eq_zero_iff {n d : Nat} (hd : 0 < d) :
    roundQuotient n d = 0 ↔ 2 * n ≤ d := by
  constructor
  · intro hzero
    rw [roundQuotient] at hzero
    split_ifs at hzero with hover
    rw [Nat.mod_eq_of_lt ((Nat.div_eq_zero_iff_lt hd).mp hzero)] at hover
    omega
  · intro hhalf
    apply roundQuotient_eq hd <;> omega

/-- What is at most half a unit is rounded to zero. -/
theorem roundUnits_eq_zero_iff {n d : Nat} (hd : 0 < d) : roundUnits n d = 0 ↔ 2 * n ≤ d := by
  rw [roundUnits, Nat.mul_eq_zero, or_iff_left (gap_pos _).ne',
    roundQuotient_eq_zero_iff (Nat.mul_pos hd (gap_pos _))]
  by_cases hless : n < d
  · have hgap : gap (n / d) = 1 := by
      rw [Nat.div_eq_of_lt hless]
      rfl
    rw [hgap, Nat.mul_one]
  · have hfloor : 0 < n / d := Nat.div_pos (not_lt.mp hless) hd
    have hgap : gap (n / d) ≤ n / d := by
      by_cases hlog : gapLog (n / d) = 0
      · rwa [gap, hlog]
      · have hlow := (gapLog_eq_iff.mp (rfl : gapLog (n / d) = gapLog (n / d))).2.resolve_left hlog
        exact (Nat.pow_le_pow_right (by decide) (Nat.le_add_left _ _)).trans hlow
    have hlow : d * gap (n / d) ≤ n :=
      (Nat.mul_le_mul_left d hgap).trans (Nat.mul_div_le n d)
    omega

/-! ### Decimals -/

theorem toRat_eq_zero_iff {d : Decimal} : d.toRat = 0 ↔ d.digits = 0 := by
  rw [Decimal.toRat, mul_eq_zero, Nat.cast_eq_zero]
  exact or_iff_left (zpow_ne_zero _ (by norm_num))

/-- The order of a decimal other than zero can be told from its value. -/
theorem order_congr {d e : Decimal} (hd : d.digits ≠ 0) (h : d.toRat = e.toRat) :
    (Nat.toDigits 10 d.digits).length + d.power = (Nat.toDigits 10 e.digits).length + e.power := by
  have he : e.digits ≠ 0 := by
    rwa [Ne, ← toRat_eq_zero_iff, ← h, toRat_eq_zero_iff]
  have hle {d e : Decimal} (hd : d.digits ≠ 0) (he : e.digits ≠ 0) (h : d.toRat = e.toRat) :
      (Nat.toDigits 10 d.digits).length + d.power ≤
        (Nat.toDigits 10 e.digits).length + e.power := by
    have hlow := (decimal_bounds hd d.power).1
    have hhigh := (decimal_bounds he e.power).2
    rw [← Decimal.toRat] at hlow hhigh
    rw [h] at hlow
    have hlt := (zpow_lt_zpow_iff_right₀ (by norm_num)).mp (hlow.trans_lt hhigh)
    omega
  exact le_antisymm (hle hd he h) (hle he hd h.symm)

theorem decimalUnits_congr {d e : Decimal} (h : d.toRat = e.toRat) :
    decimalUnits d.digits d.power = decimalUnits e.digits e.power := by
  obtain ⟨n, k, hk, hvalue, hunits⟩ := exists_decimalUnits d
  obtain ⟨m, l, hl, hvalue', hunits'⟩ := exists_decimalUnits e
  rw [hunits, hunits']
  apply roundUnits_congr hk hl
  rw [hvalue, hvalue', h]

/-- Decimals of one value have the same nearest double. -/
theorem ofDecimal?_congr {d e : Decimal} (h : d.toRat = e.toRat) (negative : Bool) :
    ofDecimal? negative d.digits d.power = ofDecimal? negative e.digits e.power := by
  have hzero : d.digits = 0 ↔ e.digits = 0 := by
    rw [← toRat_eq_zero_iff, ← toRat_eq_zero_iff, h]
  by_cases hd : d.digits = 0
  · rw [ofDecimal?_eq, ofDecimal?_eq, if_pos (.inl hd), if_pos (.inl (hzero.mp hd))]
  · rw [ofDecimal?_eq, ofDecimal?_eq, decimalUnits_congr h, order_congr hd h]
    simp only [hzero]

/-- The nearest double to a decimal is zero exactly up to half a unit. -/
theorem units_eq_zero_iff {negative : Bool} {d : Decimal} {x : Double}
    (h : ofDecimal? negative d.digits d.power = some x) :
    x.units = 0 ↔ 2 * (d.toRat * one) ≤ 1 := by
  rw [ofDecimal?_eq] at h
  split_ifs at h with hzero horder hlimit
  · cases h
    refine iff_of_true rfl ?_
    by_cases hd : d.digits = 0
    · rw [toRat_eq_zero_iff.mpr hd, zero_mul, mul_zero]
      exact zero_le_one
    · exact (two_mul_lt_one_of_order hd (hzero.resolve_left hd)).le
  · cases h
    obtain ⟨n, k, hk, hvalue, hunits⟩ := exists_decimalUnits d
    have hk' : (0 : ℚ) < k := by exact_mod_cast hk
    rw [hunits, roundUnits_eq_zero_iff hk, ← hvalue, ← mul_div_assoc, div_le_one hk']
    exact_mod_cast Iff.rfl

end Phrasebook.Double
