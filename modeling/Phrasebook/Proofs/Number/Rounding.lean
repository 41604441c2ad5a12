import Phrasebook.Number.Shortest
import Mathlib.Algebra.Order.Field.Power
import Mathlib.Data.Rat.Cast.Order
import Mathlib.Tactic.Linarith
import Mathlib.Tactic.LinearCombination
import Mathlib.Tactic.Positivity
import Mathlib.Tactic.Ring

/-!
# Rounding to doubles

Doubles are counts of units with at most 53 significant bits. Near a double, the rational numbers
that are rounded to it form an interval between the middles to its two neighbours; a middle belongs
to the double whose last bit is zero. A decimal in the interval of a double is read as that double.

## Main definitions

* `Double.Representable`, `Double.significand`: counts of units that belong to doubles, and what
  stands in front of their powers of two.
* `Double.Rounds`: the interval of a double.
* `Decimal.toRat`: the rational number that a decimal is.
* `Double.decimalUnits`: the count of units that a decimal is rounded to.

## Main results

* `Double.representable_roundUnits`: what is rounded belongs to a double.
* `Double.roundUnits_eq_of_rounds`: a fraction in the interval of a double is rounded to it.
* `Double.roundsTo_iff`: the comparison of scaled decimals decides the interval.
* `Double.ofDecimal?_eq_of_rounds`: a decimal in the interval of a double is read as it.
-/

namespace Phrasebook.Double

/-! ### Gaps -/

/-- A count of units belongs to a double: it is a multiple of the gap between doubles around it. -/
def Representable (units : Nat) : Prop := gap units ∣ units

/-- The count that stands in front of the power of two. -/
def significand (units : Nat) : Nat := units / gap units

/-- The gap is a power of two, and it is as large as 53 significant bits allow. -/
theorem gapLog_eq_iff {units e : Nat} :
    gapLog units = e ↔ units < 2 ^ (53 + e) ∧ (e = 0 ∨ 2 ^ (52 + e) ≤ units) := by
  -- The laws of the binary logarithm leave out zero.
  by_cases hzero : units = 0
  · subst hzero
    have hlog : gapLog 0 = 0 := by simp [gapLog]
    have hpos : 0 < 2 ^ (53 + e) := by positivity
    have hlow : 0 < 2 ^ (52 + e) := by positivity
    rw [hlog]
    constructor
    · rintro rfl
      exact ⟨hpos, .inl rfl⟩
    · rintro ⟨-, he | he⟩
      · exact he.symm
      · omega
  · have hself := Nat.log2_self_le hzero
    have hlt : units < 2 ^ (units.log2 + 1) := Nat.lt_log2_self
    constructor
    · rintro rfl
      rw [gapLog]
      constructor
      · exact hlt.trans_le (Nat.pow_le_pow_right (by decide) (by omega))
      · by_cases hsmall : units.log2 ≤ 52
        · exact .inl (by omega)
        · refine .inr (le_trans (Nat.pow_le_pow_right (by decide) ?_) hself)
          omega
    · rintro ⟨hhigh, hlow⟩
      have hlog : units.log2 < 53 + e := (Nat.log2_lt hzero).mpr hhigh
      rw [gapLog]
      rcases hlow with rfl | hlow
      · omega
      · have hle : 52 + e ≤ units.log2 := (Nat.le_log2 hzero).mpr hlow
        omega

theorem gapLog_le_of_lt {units e : Nat} (h : units < 2 ^ (53 + e)) : gapLog units ≤ e := by
  rcases (gapLog_eq_iff.mp (rfl : gapLog units = gapLog units)).2 with hzero | hlow
  · omega
  · have hpower : 52 + gapLog units < 53 + e :=
      (Nat.pow_lt_pow_iff_right (by decide)).mp (hlow.trans_lt h)
    omega

theorem gap_pos (units : Nat) : 0 < gap units := Nat.pos_of_ne_zero (by simp [gap])

section Significand

variable {units : Nat}

theorem lt_mul_gap (units : Nat) : units < 2 ^ 53 * gap units := by
  have hhigh := (gapLog_eq_iff.mp (rfl : gapLog units = gapLog units)).1
  rwa [Nat.pow_add] at hhigh

theorem significand_lt (units : Nat) : significand units < 2 ^ 53 :=
  Nat.div_lt_of_lt_mul (by rw [Nat.mul_comm]; exact lt_mul_gap units)

theorem le_significand (h : gapLog units ≠ 0) : 2 ^ 52 ≤ significand units := by
  have hlow := (gapLog_eq_iff.mp (rfl : gapLog units = gapLog units)).2.resolve_left h
  rw [Nat.pow_add] at hlow
  exact (Nat.le_div_iff_mul_le (gap_pos units)).mpr hlow

theorem Representable.significand_mul (h : Representable units) :
    significand units * gap units = units := Nat.div_mul_cancel h

theorem Representable.gap_le (h : Representable units) (hpos : 0 < units) : gap units ≤ units :=
  Nat.le_of_dvd hpos h

/-- A multiple of a power of two with at most 53 significant bits belongs to a double. -/
theorem representable_mul {q : Nat} (h : q ≤ 2 ^ 53) (e : Nat) : Representable (q * 2 ^ e) := by
  have hlt (q e : Nat) (hq : q < 2 ^ 53) : Representable (q * 2 ^ e) := by
    have hhigh : q * 2 ^ e < 2 ^ (53 + e) := by
      rw [Nat.pow_add]
      exact Nat.mul_lt_mul_of_pos_right hq (Nat.two_pow_pos e)
    exact Dvd.dvd.mul_left (Nat.pow_dvd_pow 2 (gapLog_le_of_lt hhigh)) q
  rcases Nat.lt_or_eq_of_le h with hless | rfl
  · exact hlt q e hless
  · have hshift : 2 ^ 53 * 2 ^ e = 2 ^ 52 * 2 ^ (e + 1) := by ring
    rw [hshift]
    exact hlt (2 ^ 52) (e + 1) (by norm_num)

end Significand

/-! ### Rounding quotients -/

/-- A quotient is rounded to a number that is at most a half away from it, and even if it is
exactly a half away. -/
theorem roundQuotient_eq {n d q : Nat} (hd : 0 < d) (hhigh : 2 * n ≤ 2 * (q * d) + d)
    (hlow : 2 * (q * d) ≤ 2 * n + d)
    (htie : 2 * n = 2 * (q * d) + d ∨ 2 * (q * d) = 2 * n + d → q % 2 = 0) :
    roundQuotient n d = q := by
  have hsum : d * (n / d) + n % d = n := Nat.div_add_mod n d
  have hmod : n % d < d := Nat.mod_lt n hd
  rw [roundQuotient]
  rcases Nat.lt_trichotomy (n / d) q with hless | rfl | hmore
  · obtain ⟨k, hk⟩ := Nat.exists_eq_add_of_lt hless
    have hproduct : q * d = d * (n / d) + d * k + d := by
      rw [hk]
      ring
    have hnext : k = 0 := by
      by_contra hne
      have hmul : d * 1 ≤ d * k := Nat.mul_le_mul_left d (Nat.one_le_iff_ne_zero.mpr hne)
      omega
    subst hnext
    rw [if_pos]
    · omega
    · rcases Nat.lt_or_ge d (2 * (n % d)) with hover | hunder
      · exact .inl hover
      · have heven := htie (.inr (by omega))
        exact .inr ⟨by omega, by omega⟩
  · have hproduct : n / d * d = d * (n / d) := Nat.mul_comm _ _
    rw [if_neg]
    rintro (hover | ⟨hhalf, hodd⟩)
    · omega
    · have heven := htie (.inl (by omega))
      omega
  · have hproduct : q * d + d ≤ d * (n / d) := by
      rw [← Nat.succ_mul, Nat.mul_comm]
      exact Nat.mul_le_mul_left d hmore
    omega

theorem roundQuotient_le (n d : Nat) : roundQuotient n d ≤ n / d + 1 := by
  rw [roundQuotient]
  split_ifs <;> omega

/-- What is rounded belongs to a double. -/
theorem representable_roundUnits (n d : Nat) : Representable (roundUnits n d) := by
  have hquotient : n / (d * gap (n / d)) < 2 ^ 53 := by
    rw [← Nat.div_div_eq_div_mul]
    exact significand_lt (n / d)
  exact representable_mul ((roundQuotient_le n _).trans hquotient) (gapLog (n / d))

/-! ### Intervals of doubles -/

/-- Twice the distance to the double below, in units; it is halved where the gap changes. -/
def below (units : Nat) : Nat :=
  if significand units = 2 ^ 52 ∧ 1 < gap units then gap units else 2 * gap units

/-- The gap below a double is the one above it, or it is half of it at the start of a binade. -/
theorem below_cases (units : Nat) :
    (below units = 2 * gap units ∧ (gapLog units ≠ 0 → 2 ^ 52 < significand units)) ∨
      ∃ e, gapLog units = e + 1 ∧ significand units = 2 ^ 52 ∧ below units = gap units := by
  have hgap : gap units = 2 ^ gapLog units := rfl
  rw [below]
  split_ifs with hstart
  · obtain ⟨hsignificand, hlarge⟩ := hstart
    cases hlog : gapLog units with
    | zero =>
      rw [hgap, hlog] at hlarge
      omega
    | succ e => exact .inr ⟨e, rfl, hsignificand, rfl⟩
  · refine .inl ⟨rfl, fun hlog => ?_⟩
    have hlow := le_significand hlog
    have hlarge : 1 < gap units := by
      rw [hgap]
      exact Nat.one_lt_two_pow hlog
    omega

theorem below_bounds (units : Nat) : 0 < below units ∧ below units ≤ 2 * gap units := by
  have hgap := gap_pos units
  rcases below_cases units with ⟨hbelow, -⟩ | ⟨e, -, -, hbelow⟩ <;> omega

namespace Representable

variable {units : Nat} (hunits : Representable units)

include hunits

/-- The start of a binade in terms of the gap below. -/
theorem start_of_binade {e : Nat} (hlog : gapLog units = e + 1)
    (hstart : significand units = 2 ^ 52) : gap units = 2 * 2 ^ e ∧ units = 2 ^ 53 * 2 ^ e := by
  have hgap : gap units = 2 * 2 ^ e := by
    rw [gap, hlog, Nat.pow_eq, Nat.pow_succ, Nat.mul_comm]
  refine ⟨hgap, ?_⟩
  rw [← hunits.significand_mul, hstart, hgap]
  ring

/-- Behind the start of a binade there is room for a gap below. -/
theorem inside_of_binade (h : 2 ^ 52 < significand units) :
    2 ^ 52 * gap units + gap units ≤ units := by
  have hnext := Nat.mul_le_mul_right (gap units) h
  rwa [hunits.significand_mul, Nat.succ_mul] at hnext

end Representable

/-- The gap that is rounded to depends on where the quotient lies. -/
theorem roundUnits_eq_of_binade {n d q e : Nat} (hd : 0 < d) (hfloor : n / d < 2 ^ (53 + e))
    (hstart : e = 0 ∨ 2 ^ (52 + e) ≤ n / d) (hhigh : 2 * n ≤ 2 * (q * 2 ^ e * d) + 2 ^ e * d)
    (hlow : 2 * (q * 2 ^ e * d) ≤ 2 * n + 2 ^ e * d)
    (htie : 2 * n = 2 * (q * 2 ^ e * d) + 2 ^ e * d ∨ 2 * (q * 2 ^ e * d) = 2 * n + 2 ^ e * d →
      q % 2 = 0) :
    roundUnits n d = q * 2 ^ e := by
  have hgap : gap (n / d) = 2 ^ e := by
    rw [gap, gapLog_eq_iff.mpr ⟨hfloor, hstart⟩]
    rfl
  have hproduct : q * (d * 2 ^ e) = q * 2 ^ e * d := by ring
  have hspan : d * 2 ^ e = 2 ^ e * d := Nat.mul_comm _ _
  rw [roundUnits, hgap, roundQuotient_eq (q := q) (Nat.mul_pos hd (Nat.two_pow_pos e))]
  · rw [hproduct, hspan]
    exact hhigh
  · rw [hproduct, hspan]
    exact hlow
  · rw [hproduct, hspan]
    exact htie

section Near

variable {units n d : Nat} (hunits : Representable units) (hd : 0 < d)

include hunits hd

/-- What lies in the binade of a double is rounded to it if it is at most half a gap away. -/
theorem roundUnits_eq_of_same_binade (hfloor : n / d < 2 ^ (53 + gapLog units))
    (hstart : gapLog units = 0 ∨ 2 ^ (52 + gapLog units) ≤ n / d)
    (hhigh : 2 * n ≤ 2 * (units * d) + gap units * d)
    (hlow : 2 * (units * d) ≤ 2 * n + gap units * d)
    (htie : 2 * n = 2 * (units * d) + gap units * d ∨ 2 * (units * d) = 2 * n + gap units * d →
      significand units % 2 = 0) :
    roundUnits n d = units := by
  have hgap : gap units = 2 ^ gapLog units := rfl
  have hround := roundUnits_eq_of_binade (q := significand units) hd hfloor hstart
  rw [← hgap, hunits.significand_mul] at hround
  exact hround hhigh hlow htie

/-- What lies in the interval of a double is rounded to it. The quotient `n / d` counts units. -/
theorem roundUnits_eq_of_near (hlow : 4 * (units * d) ≤ 4 * n + below units * d)
    (hhigh : 4 * n ≤ 4 * (units * d) + 2 * (gap units * d))
    (htie : 4 * (units * d) = 4 * n + below units * d ∨
      4 * n = 4 * (units * d) + 2 * (gap units * d) → significand units % 2 = 0) :
    roundUnits n d = units := by
  have hgap : gap units = 2 ^ gapLog units := rfl
  have hspan : 0 < gap units * d := Nat.mul_pos (gap_pos units) hd
  have hend : units + gap units ≤ 2 ^ (53 + gapLog units) := by
    rw [Nat.pow_add, ← hgap]
    calc units + gap units = (significand units + 1) * gap units := by
          rw [Nat.add_mul, hunits.significand_mul, Nat.one_mul]
      _ ≤ 2 ^ 53 * gap units := Nat.mul_le_mul_right _ (significand_lt units)
  have hfloor : n / d < 2 ^ (53 + gapLog units) := by
    refine lt_of_lt_of_le ?_ hend
    rw [Nat.div_lt_iff_lt_mul hd, Nat.add_mul]
    omega
  rcases Nat.lt_or_ge n (units * d) with hless | hmore
  · rcases below_cases units with ⟨hbelow, hinside⟩ | ⟨e, hlog, hstart, hbelow⟩
    · rw [hbelow, Nat.mul_assoc] at hlow htie
      have hbinade : gapLog units = 0 ∨ 2 ^ (52 + gapLog units) ≤ n / d := by
        refine or_iff_not_imp_left.mpr fun hlog => ?_
        have hscaled := Nat.mul_le_mul_right d (hunits.inside_of_binade (hinside hlog))
        rw [Nat.pow_add, ← hgap, Nat.le_div_iff_mul_le hd]
        rw [Nat.add_mul] at hscaled
        omega
      refine roundUnits_eq_of_same_binade hunits hd hfloor hbinade (by omega) (by omega) ?_
      rintro (hhalf | hhalf)
      · omega
      · exact htie (.inl (by omega))
    · -- At the start of a binade what lies below is rounded with the gap of the binade below.
      obtain ⟨hhalfGap, hunitsHalf⟩ := hunits.start_of_binade hlog hstart
      have hscale : units * d = 2 ^ 53 * (2 ^ e * d) := by
        rw [hunitsHalf, Nat.mul_assoc]
      rw [hbelow, hhalfGap, Nat.mul_assoc] at hlow
      have hbinade : e = 0 ∨ 2 ^ (52 + e) ≤ n / d := by
        refine .inr ?_
        rw [Nat.pow_add, Nat.le_div_iff_mul_le hd, Nat.mul_assoc]
        omega
      have hfloorLow : n / d < 2 ^ (53 + e) := by
        rw [Nat.pow_add, ← hunitsHalf]
        exact (Nat.div_lt_iff_lt_mul hd).mpr hless
      have hround := roundUnits_eq_of_binade (q := 2 ^ 53) hd hfloorLow hbinade
      rw [← hunitsHalf] at hround
      exact hround (by omega) (by omega) fun _ => by norm_num
  · have hbinade : gapLog units = 0 ∨ 2 ^ (52 + gapLog units) ≤ n / d := by
      rcases (gapLog_eq_iff.mp (rfl : gapLog units = gapLog units)).2 with hzero | hle
      · exact .inl hzero
      · exact .inr (hle.trans ((Nat.le_div_iff_mul_le hd).mpr hmore))
    refine roundUnits_eq_of_same_binade hunits hd hfloor hbinade (by omega) (by omega) ?_
    rintro (hhalf | hhalf)
    · exact htie (.inr (by omega))
    · omega

end Near

/-- A number of units is in the interval of a double. The bounds are four times the middles to the
neighbours; they belong to the interval if the last bit of the double is zero. -/
structure Rounds (units : Nat) (v : ℚ) : Prop where
  low : 4 * (units : ℚ) - below units ≤ 4 * v
  high : 4 * v ≤ 4 * units + 2 * gap units
  tie : 4 * v = 4 * units - below units ∨ 4 * v = 4 * units + 2 * gap units →
    significand units % 2 = 0

theorem roundUnits_eq_of_rounds {units n d : Nat} (hunits : Representable units) (hd : 0 < d)
    (h : Rounds units (n / d)) : roundUnits n d = units := by
  have hd' : (0 : ℚ) < d := by exact_mod_cast hd
  have hvalue : (n : ℚ) / d * d = n := div_mul_cancel₀ _ hd'.ne'
  have hlow := mul_le_mul_of_nonneg_right h.low hd'.le
  have hhigh := mul_le_mul_of_nonneg_right h.high hd'.le
  refine roundUnits_eq_of_near hunits hd ?_ ?_ ?_
  · have hcast : (4 * (units * d) : ℚ) ≤ 4 * n + below units * d := by linarith
    exact_mod_cast hcast
  · have hcast : (4 * n : ℚ) ≤ 4 * (units * d) + 2 * (gap units * d) := by linarith
    exact_mod_cast hcast
  · rintro (htie | htie)
    · apply h.tie
      left
      have hcast : (4 * (units * d) : ℚ) = 4 * n + below units * d := by exact_mod_cast htie
      apply mul_right_cancel₀ hd'.ne'
      linarith
    · apply h.tie
      right
      have hcast : (4 * n : ℚ) = 4 * (units * d) + 2 * (gap units * d) := by exact_mod_cast htie
      apply mul_right_cancel₀ hd'.ne'
      linarith

end Phrasebook.Double

/-! ### Decimals -/

namespace Phrasebook

/-- The number that a decimal spells. -/
def Decimal.toRat (d : Decimal) : ℚ := d.digits * 10 ^ d.power

namespace Double

theorem ten_zpow_of_nonneg {power : Int} (h : 0 ≤ power) :
    (10 : ℚ) ^ power = 10 ^ power.toNat := by
  rw [← zpow_natCast, Int.toNat_of_nonneg h]

theorem ten_pow_mul_zpow {power : Int} (h : ¬ 0 ≤ power) :
    (10 : ℚ) ^ (-power).toNat * 10 ^ power = 1 := by
  rw [← zpow_natCast, Int.toNat_of_nonneg (by omega), ← zpow_add₀ (by norm_num), neg_add_cancel,
    zpow_zero]

/-- Quarters are compared with a decimal after both are scaled to natural numbers. -/
theorem exists_compareQuarters (quarters : Nat) (d : Decimal) :
    ∃ (a b : Nat) (scale : ℚ), 0 < scale ∧ compareQuarters quarters d = compare a b ∧
      (a : ℚ) = scale * quarters ∧ (b : ℚ) = scale * (4 * (d.toRat * one)) := by
  rw [compareQuarters]
  split_ifs with hpower
  · refine ⟨_, _, 1, one_pos, rfl, by rw [one_mul], ?_⟩
    rw [Decimal.toRat, ten_zpow_of_nonneg hpower, Nat.pow_eq]
    push_cast
    ring
  · refine ⟨_, _, 10 ^ (-d.power).toNat, by positivity, rfl, ?_, ?_⟩
    · rw [Nat.pow_eq]
      push_cast
      ring
    · rw [Decimal.toRat]
      push_cast
      linear_combination (-(d.digits : ℚ) * 4 * one) * ten_pow_mul_zpow hpower

theorem compareQuarters_eq_lt_iff {quarters : Nat} {d : Decimal} :
    compareQuarters quarters d = .lt ↔ (quarters : ℚ) < 4 * (d.toRat * one) := by
  obtain ⟨a, b, scale, hscale, hcompare, ha, hb⟩ := exists_compareQuarters quarters d
  rw [hcompare, compare_lt_iff_lt, ← mul_lt_mul_iff_right₀ hscale, ← ha, ← hb, Nat.cast_lt]

theorem compareQuarters_eq_gt_iff {quarters : Nat} {d : Decimal} :
    compareQuarters quarters d = .gt ↔ 4 * (d.toRat * one) < (quarters : ℚ) := by
  obtain ⟨a, b, scale, hscale, hcompare, ha, hb⟩ := exists_compareQuarters quarters d
  rw [hcompare, compare_gt_iff_gt, ← mul_lt_mul_iff_right₀ hscale, ← ha, ← hb, Nat.cast_lt]

/-- The check says that a decimal is in the interval of a double. -/
theorem roundsTo_iff {units : Nat} (hunits : Representable units) (hpos : 0 < units) {d : Decimal} :
    roundsTo units d = true ↔ Rounds units (d.toRat * one) := by
  have hbelow : below units ≤ 4 * units := by
    have hgap := hunits.gap_le hpos
    have hbounds := below_bounds units
    omega
  have hcast : ((4 * units - below units : Nat) : ℚ) = 4 * units - below units := by
    rw [Nat.cast_sub hbelow]
    push_cast
    rfl
  have hcast' : ((4 * units + 2 * gap units : Nat) : ℚ) = 4 * units + 2 * gap units := by
    push_cast
    rfl
  have hopen : roundsTo units d = if significand units % 2 = 0
      then compareQuarters (4 * units - below units) d != .gt &&
        compareQuarters (4 * units + 2 * gap units) d != .lt
      else compareQuarters (4 * units - below units) d == .lt &&
        compareQuarters (4 * units + 2 * gap units) d == .gt := rfl
  rw [hopen]
  -- The comparisons are weak if the last bit is zero, and strict otherwise.
  split_ifs with heven
  · simp only [Bool.and_eq_true, bne_iff_ne, ne_eq, compareQuarters_eq_gt_iff,
      compareQuarters_eq_lt_iff, hcast, hcast', not_lt]
    exact ⟨fun h => ⟨h.1, h.2, fun _ => heven⟩, fun h => ⟨h.low, h.high⟩⟩
  · simp only [Bool.and_eq_true, beq_iff_eq, compareQuarters_eq_gt_iff, compareQuarters_eq_lt_iff,
      hcast, hcast']
    constructor
    · rintro ⟨hlow, hhigh⟩
      refine ⟨hlow.le, hhigh.le, ?_⟩
      rintro (htie | htie)
      · exact absurd htie hlow.ne'
      · exact absurd htie hhigh.ne
    · intro h
      refine ⟨h.low.lt_of_ne fun htie => ?_, h.high.lt_of_ne fun htie => ?_⟩
      · exact heven (h.tie (.inl htie.symm))
      · exact heven (h.tie (.inr htie))

/-! ### Reading decimals -/

namespace Rounds

variable {units : Nat} {v : ℚ} (h : Rounds units v) (hunits : Representable units)
  (hpos : 0 < units)

include h hunits hpos

/-- What is rounded to a positive double is at least half of it. -/
theorem half_le : (units : ℚ) ≤ 2 * v := by
  have hlow := h.low
  have hgap : (gap units : ℚ) ≤ units := by exact_mod_cast hunits.gap_le hpos
  have hbelow : (below units : ℚ) ≤ 2 * gap units := by exact_mod_cast (below_bounds units).2
  linarith

theorem pos : 0 < v := by
  have hhalf := h.half_le hunits hpos
  have hunits' : (0 : ℚ) < units := by exact_mod_cast hpos
  linarith

/-- What is rounded to a double is at most twice as large. -/
theorem le_double : v ≤ 2 * units := by
  have hhigh := h.high
  have hgap : (gap units : ℚ) ≤ units := by exact_mod_cast hunits.gap_le hpos
  linarith

end Rounds

/-- The digits of a number tell its order of magnitude. -/
theorem toDigits_bounds {n : Nat} (h : n ≠ 0) :
    10 ^ ((Nat.toDigits 10 n).length - 1) ≤ n ∧ n < 10 ^ (Nat.toDigits 10 n).length := by
  have hlength : 0 < (Nat.toDigits 10 n).length := List.length_pos_of_ne_nil Nat.toDigits_ne_nil
  refine ⟨?_, (Nat.length_toDigits_le_iff (by decide) hlength).mp le_rfl⟩
  by_cases hone : (Nat.toDigits 10 n).length - 1 = 0
  · rw [hone]
    omega
  · by_contra hless
    have hshort := (Nat.length_toDigits_le_iff (by decide) (Nat.pos_of_ne_zero hone)).mpr
      (Nat.lt_of_not_le hless)
    omega

theorem cast_two_pow (n : Nat) : ((Nat.pow 2 n : Nat) : ℚ) = 2 ^ n := by
  rw [Nat.pow_eq, Nat.cast_pow, Nat.cast_ofNat]

theorem cast_ten_pow (n : Nat) : ((Nat.pow 10 n : Nat) : ℚ) = 10 ^ n := by
  rw [Nat.pow_eq, Nat.cast_pow, Nat.cast_ofNat]

theorem one_cast : (one : ℚ) = 2 ^ 1074 := by
  unfold one
  generalize 1074 = n
  exact cast_two_pow n

theorem one_cast_pos : (0 : ℚ) < one := by
  rw [one_cast]
  positivity

theorem limit_cast : (limit : ℚ) = 2 ^ 2098 := by
  unfold limit
  generalize 2098 = n
  exact cast_two_pow n

/-- The order of magnitude of a decimal. -/
theorem decimal_bounds {digits : Nat} (h : digits ≠ 0) (power : Int) :
    (10 : ℚ) ^ ((Nat.toDigits 10 digits).length + power - 1) ≤ digits * 10 ^ power ∧
      (digits : ℚ) * 10 ^ power < 10 ^ ((Nat.toDigits 10 digits).length + power) := by
  obtain ⟨hlow, hhigh⟩ := toDigits_bounds h
  have hlength : 0 < (Nat.toDigits 10 digits).length :=
    List.length_pos_of_ne_nil Nat.toDigits_ne_nil
  have hpower : (0 : ℚ) < 10 ^ power := by positivity
  constructor
  · have hsplit : ((Nat.toDigits 10 digits).length : Int) + power - 1 =
        ((Nat.toDigits 10 digits).length - 1 : Nat) + power := by omega
    rw [hsplit, zpow_add₀ (by norm_num), zpow_natCast]
    exact mul_le_mul_of_nonneg_right (by exact_mod_cast hlow) hpower.le
  · rw [zpow_add₀ (by norm_num), zpow_natCast]
    exact mul_lt_mul_of_pos_right (by exact_mod_cast hhigh) hpower

theorem two_pow_le_ten_pow (n : Nat) : (2 : ℚ) ^ (3 * n) ≤ 10 ^ n := by
  rw [pow_mul]
  exact pow_le_pow_left₀ (by norm_num) (by norm_num) n

/-- A decimal whose order is below the bound is less than half a unit, which is more than ten to the
power of -401. -/
theorem two_mul_lt_one_of_order {digits : Nat} {power : Int} (hdigits : digits ≠ 0)
    (horder : (Nat.toDigits 10 digits).length + power < -orderBound) :
    2 * ((digits : ℚ) * 10 ^ power * one) < 1 := by
  have htiny : (digits : ℚ) * 10 ^ power < (10 ^ 401)⁻¹ := by
    refine (decimal_bounds hdigits power).2.trans_le ?_
    rw [← zpow_natCast, ← zpow_neg]
    apply zpow_le_zpow_right₀ (by norm_num)
    rw [orderBound] at horder
    push_cast
    omega
  have hscaled := mul_lt_mul_of_pos_right htiny one_cast_pos
  have hpower : (2 : ℚ) * one ≤ 10 ^ 401 := by
    rw [one_cast, ← pow_succ']
    exact (pow_le_pow_right₀ (by norm_num) (by norm_num)).trans (two_pow_le_ten_pow 401)
  have hsmall : (10 ^ 401)⁻¹ * (2 * (one : ℚ)) ≤ 1 := by
    rw [inv_mul_le_iff₀ (by positivity), mul_one]
    exact hpower
  generalize ((10 : ℚ) ^ 401)⁻¹ = tiny at hscaled hsmall
  linarith

/-- The count of units that a decimal is rounded to. -/
def decimalUnits (digits : Nat) (power : Int) : Nat :=
  if 0 ≤ power then roundUnits (digits * Nat.pow 10 power.toNat * one) 1
  else roundUnits (digits * one) (Nat.pow 10 (-power).toNat)

/-- A decimal is rounded as a fraction of its value. -/
theorem exists_decimalUnits (d : Decimal) :
    ∃ n k : Nat, 0 < k ∧ (n : ℚ) / k = d.toRat * one ∧
      decimalUnits d.digits d.power = roundUnits n k := by
  by_cases hpower : 0 ≤ d.power
  · refine ⟨d.digits * Nat.pow 10 d.power.toNat * one, 1, one_pos, ?_, if_pos hpower⟩
    rw [Decimal.toRat, ten_zpow_of_nonneg hpower, Nat.cast_mul, Nat.cast_mul, cast_ten_pow,
      Nat.cast_one, div_one]
  · refine ⟨d.digits * one, Nat.pow 10 (-d.power).toNat, Nat.pow_pos (by decide), ?_,
      if_neg hpower⟩
    rw [Decimal.toRat, eq_inv_of_mul_eq_one_right (ten_pow_mul_zpow hpower), cast_ten_pow,
      Nat.cast_mul, div_eq_mul_inv, mul_right_comm]

theorem ofDecimal?_eq (negative : Bool) (digits : Nat) (power : Int) :
    ofDecimal? negative digits power =
      if digits = 0 ∨ (Nat.toDigits 10 digits).length + power < -orderBound then some ⟨negative, 0⟩
      else if orderBound < (Nat.toDigits 10 digits).length + power then none
      else if decimalUnits digits power < limit then some ⟨negative, decimalUnits digits power⟩
      else none := rfl

section Order

variable {units digits : Nat} {power : Int} (hunits : Representable units) (hpos : 0 < units)
  (h : Rounds units (digits * 10 ^ power * one))

include hunits hpos h

theorem digits_ne_zero_of_rounds : digits ≠ 0 := by
  rintro rfl
  have hvalue := h.pos hunits hpos
  rw [Nat.cast_zero, zero_mul, zero_mul] at hvalue
  exact lt_irrefl _ hvalue

/-- What is rounded to a positive double is not below the bound. -/
theorem neg_orderBound_le_of_rounds :
    -orderBound ≤ (Nat.toDigits 10 digits).length + power := by
  by_contra hless
  have hunit : (1 : ℚ) ≤ units := by exact_mod_cast hpos
  have hhalf := h.half_le hunits hpos
  have htiny := two_mul_lt_one_of_order (digits_ne_zero_of_rounds hunits hpos h) (not_le.mp hless)
  linarith

/-- Twice the limit of doubles is less than ten to the power of 400. -/
theorem le_orderBound_of_rounds (hlimit : units < limit) :
    (Nat.toDigits 10 digits).length + power ≤ orderBound := by
  by_contra hmore
  have hdouble := h.le_double hunits hpos
  have hunit : (units : ℚ) < 2 ^ 2098 := by
    rw [← limit_cast]
    exact_mod_cast hlimit
  have hhuge : (10 : ℚ) ^ 400 ≤ digits * 10 ^ power := by
    refine le_trans ?_ (decimal_bounds (digits_ne_zero_of_rounds hunits hpos h) power).1
    rw [← zpow_natCast]
    apply zpow_le_zpow_right₀ (by norm_num)
    rw [orderBound] at hmore
    push_cast
    omega
  have hscaled := mul_le_mul_of_nonneg_right hhuge one_cast_pos.le
  have hpower : (2 : ℚ) * 2 ^ 2098 ≤ 10 ^ 400 * one := by
    have hsplit : (2 : ℚ) * 2 ^ 2098 = 2 ^ 1025 * 2 ^ 1074 := by
      rw [← pow_succ', ← pow_add]
    have hten : (2 : ℚ) ^ 1025 ≤ 10 ^ 400 :=
      (pow_le_pow_right₀ (by norm_num) (by norm_num)).trans (two_pow_le_ten_pow 400)
    rw [hsplit, one_cast]
    exact mul_le_mul_of_nonneg_right hten (by positivity)
  generalize (2 : ℚ) ^ 2098 = bound at hunit hpower
  generalize (10 : ℚ) ^ 400 = huge at hscaled hpower
  linarith

/-- A decimal in the interval of a double is read as that double. -/
theorem ofDecimal?_eq_of_rounds (hlimit : units < limit) (negative : Bool) :
    ofDecimal? negative digits power = some ⟨negative, units⟩ := by
  have hdigits := digits_ne_zero_of_rounds hunits hpos h
  have hlow := neg_orderBound_le_of_rounds hunits hpos h
  have hhigh := le_orderBound_of_rounds hunits hpos h hlimit
  have hround : decimalUnits digits power = units := by
    obtain ⟨n, k, hk, hvalue, hfraction⟩ := exists_decimalUnits ⟨digits, power⟩
    rw [hfraction]
    apply roundUnits_eq_of_rounds hunits hk
    rwa [hvalue]
  rw [ofDecimal?_eq, hround, if_neg (by omega), if_neg (by omega), if_pos hlimit]

end Order

end Double

end Phrasebook
