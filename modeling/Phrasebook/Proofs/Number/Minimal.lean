import Phrasebook.Proofs.Number.Shortest

/-!
# Shortest decimals are shortest

The decimal that the search finds has the fewest digits of all decimals that are rounded to the
double, and of those with as many digits it is the nearest one; of two equally near ones it is the
larger one. This determines it.

A decimal with at most as many digits as a grid stands for is on that grid, or it is so small that
the first power of ten below the double lies between them. The numbers that are rounded to a double
form an interval, so in both cases a neighbour of the double on the grid is rounded to it too, and
the search goes no further.

## Main definitions

* `Decimal.HasDigits`: a number is a decimal with at most so many digits.
* `Double.IsShortest`: the shortest decimal of a double, as a number.

## Main results

* `Double.IsShortest.unique`: there is at most one.
* `Double.isShortest_shortest`: the search finds it.
* `Double.shortest_digits_mod_ten`: it is written without zeros at its end.
* `Double.isShortest_of_small`: an integer of at most 53 bits is its own shortest decimal.
-/

namespace Phrasebook

/-- A number is a decimal with at most `n` digits. -/
def Decimal.HasDigits (n : Nat) (v : ℚ) : Prop := ∃ d : Decimal, d.digits < 10 ^ n ∧ d.toRat = v

theorem Decimal.strip_digits_mod_ten {n fuel : Nat} (hn : n ≤ fuel) {d : Decimal}
    (hd : d.digits ≠ 0) (hdigits : d.digits < 10 ^ n) : (d.strip fuel).digits % 10 ≠ 0 := by
  have hfuel : d.digits < 10 ^ fuel := hdigits.trans_le (Nat.pow_le_pow_right (by decide) hn)
  clear hn hdigits
  induction fuel generalizing d with
  | zero => exact absurd (Nat.lt_one_iff.mp hfuel) hd
  | succ fuel ih =>
    rw [strip]
    split_ifs with hzero
    · rw [Nat.pow_succ] at hfuel
      exact ih (by dsimp only; omega) (by dsimp only; omega)
    · exact fun hmod => hzero ⟨hd, hmod⟩

namespace Double

/-- The shortest decimal of a double: it is rounded to the double, no decimal that is has fewer
digits, none with as many digits is nearer, and a smaller one is taken only if it is nearer. -/
structure IsShortest (units : Nat) (v : ℚ) : Prop where
  rounds : Rounds units (v * one)
  exists_digits : ∃ n, Decimal.HasDigits n v ∧ ∀ w, Rounds units (w * one) →
    (∀ m, Decimal.HasDigits m w → n ≤ m) ∧
    (Decimal.HasDigits n w → |v * one - units| ≤ |w * one - units| ∧
      (|v * one - units| = |w * one - units| → w ≤ v))

theorem IsShortest.unique {units : Nat} {v w : ℚ} (hv : IsShortest units v)
    (hw : IsShortest units w) : v = w := by
  obtain ⟨n, hn, hnear⟩ := hv.exists_digits
  obtain ⟨m, hm, hnear'⟩ := hw.exists_digits
  obtain ⟨hfew, hle⟩ := hnear w hw.rounds
  obtain ⟨hfew', hle'⟩ := hnear' v hv.rounds
  obtain rfl : n = m := le_antisymm (hfew m hm) (hfew' n hn)
  obtain ⟨hdist, htie⟩ := hle hm
  obtain ⟨hdist', htie'⟩ := hle' hn
  have hequal := le_antisymm hdist hdist'
  exact le_antisymm (htie' hequal.symm) (htie hequal)

/-! ### Intervals -/

namespace Rounds

variable {units : Nat} {a b : ℚ} (h : Rounds units a)

include h

/-- What lies between a double and a number that is rounded to it from below is rounded to it. -/
theorem of_le_of_le (hab : a ≤ b) (hb : b ≤ units) : Rounds units b := by
  have hgap : (0 : ℚ) < gap units := by exact_mod_cast gap_pos units
  have hlow := h.low
  refine ⟨by linarith, by linarith, ?_⟩
  rintro (htie | htie)
  · exact h.tie (.inl (by linarith))
  · linarith

/-- What lies between a double and a number that is rounded to it from above is rounded to it. -/
theorem of_ge_of_ge (hab : b ≤ a) (hb : units ≤ b) : Rounds units b := by
  have hbelow : (0 : ℚ) < below units := by exact_mod_cast (below_bounds units).1
  have hhigh := h.high
  refine ⟨by linarith, by linarith, ?_⟩
  rintro (htie | htie)
  · linarith
  · exact h.tie (.inr (by linarith))

end Rounds

/-! ### Grids -/

theorem step_pos (power : Int) : 0 < step power := mul_pos (by positivity) one_cast_pos

theorem step_le_step {a b : Int} (h : a ≤ b) : step a ≤ step b :=
  mul_le_mul_of_nonneg_right (zpow_le_zpow_right₀ (by norm_num) h) one_cast_pos.le

section Grid

variable {units : Nat} {power : Int} {tie : Tie} {d : Decimal}

/-- A decimal of a grid is one of the two neighbours of the double. -/
theorem candidate?_eq_some_cases (h : candidate? tie units power = some d) :
    d = floorDecimal units power ∨ d = ⟨(floorDecimal units power).digits + 1, power⟩ := by
  unfold candidate? at h
  dsimp only at h
  split at h
  · cases h
  · exact .inl (Option.some.inj h).symm
  · exact .inr (Option.some.inj h).symm
  · split at h
    · exact .inl (Option.some.inj h).symm
    · exact .inr (Option.some.inj h).symm
    · exact .inr (Option.some.inj h).symm
    · split_ifs at h
      · exact .inl (Option.some.inj h).symm
      · exact .inr (Option.some.inj h).symm

/-- If a decimal of a grid is rounded to the double, so is one of the neighbours of the double. -/
theorem rounds_neighbour {g : Nat} (hg : Rounds units (g * step power)) :
    (g ≤ (floorDecimal units power).digits ∧
      Rounds units ((floorDecimal units power).digits * step power)) ∨
    ((floorDecimal units power).digits + 1 ≤ g ∧
      Rounds units (((floorDecimal units power).digits + 1 : Nat) * step power)) := by
  obtain ⟨hlow, hhigh⟩ := floorDecimal_bounds units power
  have hstep := (step_pos power).le
  rcases Nat.lt_or_ge (floorDecimal units power).digits g with hlt | hge
  · refine .inr ⟨hlt, hg.of_ge_of_ge ?_ hhigh.le⟩
    exact mul_le_mul_of_nonneg_right (by exact_mod_cast hlt) hstep
  · refine .inl ⟨hge, hg.of_le_of_le ?_ hlow⟩
    exact mul_le_mul_of_nonneg_right (by exact_mod_cast hge) hstep

variable (hunits : Representable units) (hpos : 0 < units)

include hunits hpos

theorem candidate?_ne_none_of_rounds {g : Nat} (hg : Rounds units (g * step power)) :
    candidate? tie units power ≠ none := by
  apply candidate?_ne_none
  rw [roundsTo_iff hunits hpos, roundsTo_iff hunits hpos, toRat_mul_one, toRat_mul_one]
  exact (rounds_neighbour hg).imp And.right And.right

/-- The lower neighbour is taken if it is nearer than the upper one or that is not rounded to the
double, and the upper one if it is as near or the lower one is not. -/
theorem candidate?_up_cases (h : candidate? .up units power = some d) :
    (d.toRat * one = (floorDecimal units power).digits * step power ∧
      (Rounds units (((floorDecimal units power).digits + 1 : Nat) * step power) →
        2 * (units : ℚ) < (2 * (floorDecimal units power).digits + 1) * step power)) ∨
    (d.toRat * one = ((floorDecimal units power).digits + 1 : Nat) * step power ∧
      (Rounds units ((floorDecimal units power).digits * step power) →
        (2 * (floorDecimal units power).digits + 1) * step power ≤ 2 * (units : ℚ))) := by
  have hlow := roundsTo_iff hunits hpos (d := floorDecimal units power)
  have hhigh := roundsTo_iff hunits hpos (d := ⟨(floorDecimal units power).digits + 1, power⟩)
  have hcompare : compareQuarters (8 * units)
      ⟨(floorDecimal units power).digits + ((floorDecimal units power).digits + 1), power⟩ = .lt ↔
        2 * (units : ℚ) < (2 * (floorDecimal units power).digits + 1) * step power := by
    rw [compareQuarters_eq_lt_iff, toRat_mul_one]
    push_cast
    constructor <;> intro <;> linarith
  rw [toRat_mul_one] at hlow hhigh
  have hpower : (floorDecimal units power).power = power := rfl
  rw [hpower] at hlow
  unfold candidate? at h
  dsimp only at h
  split at h
  · cases h
  · next hfalse =>
    cases h
    refine .inl ⟨toRat_mul_one _, fun hrounds => ?_⟩
    rw [hhigh.mpr hrounds] at hfalse
    cases hfalse
  · next hfalse _ =>
    cases h
    refine .inr ⟨toRat_mul_one _, fun hrounds => ?_⟩
    rw [hlow.mpr hrounds] at hfalse
    cases hfalse
  · split at h
    · next hlt =>
      cases h
      exact .inl ⟨toRat_mul_one _, fun _ => hcompare.mp hlt⟩
    · next hgt =>
      cases h
      refine .inr ⟨toRat_mul_one _, fun _ => not_lt.mp fun hlt => ?_⟩
      rw [hcompare.mpr hlt] at hgt
      cases hgt
    · next heq _ =>
      cases h
      refine .inr ⟨toRat_mul_one _, fun _ => not_lt.mp fun hlt => ?_⟩
      rw [hcompare.mpr hlt] at heq
      cases heq
    · next htie => cases htie

/-- The decimal that is taken from a grid is the nearest one, and the larger one of two. -/
theorem candidate?_up_nearest (h : candidate? .up units power = some d) {g : Nat}
    (hg : Rounds units (g * step power)) :
    |d.toRat * one - units| ≤ |g * step power - units| ∧
      (|d.toRat * one - units| = |g * step power - units| → g * step power ≤ d.toRat * one) := by
  obtain ⟨hlow, hhigh⟩ := floorDecimal_bounds units power
  have hstep := (step_pos power).le
  have hbelow (hle : g ≤ (floorDecimal units power).digits) :
      g * step power ≤ (floorDecimal units power).digits * step power :=
    mul_le_mul_of_nonneg_right (by exact_mod_cast hle) hstep
  have habove (hle : (floorDecimal units power).digits + 1 ≤ g) :
      ((floorDecimal units power).digits + 1 : Nat) * step power ≤ g * step power :=
    mul_le_mul_of_nonneg_right (by exact_mod_cast hle) hstep
  push_cast at hhigh habove
  -- What is taken and what it is compared with are each below or above the double.
  rcases candidate?_up_cases hunits hpos h with ⟨hd, hother⟩ | ⟨hd, hother⟩ <;>
    rcases rounds_neighbour hg with ⟨hle, hrounds⟩ | ⟨hle, hrounds⟩
  · have hle := hbelow hle
    rw [hd, abs_of_nonpos (by linarith), abs_of_nonpos (by linarith)]
    exact ⟨by linarith, fun _ => hle⟩
  · have hle := habove hle
    have hnear := hother hrounds
    rw [hd, abs_of_nonpos (by linarith), abs_of_nonneg (by linarith)]
    exact ⟨by linarith, fun hequal => by linarith⟩
  · have hle := hbelow hle
    have hnear := hother hrounds
    push_cast at hd
    rw [hd, abs_of_nonneg (by linarith), abs_of_nonpos (by linarith)]
    exact ⟨by linarith, fun hequal => by linarith⟩
  · have hle := habove hle
    push_cast at hd
    rw [hd, abs_of_nonneg (by linarith), abs_of_nonneg (by linarith)]
    exact ⟨by linarith, fun hequal => by linarith⟩

end Grid

/-! ### The search -/

/-- A count of units is below the next power of ten. -/
theorem lt_step_decimalOrder (units : Nat) : (units : ℚ) < step (decimalOrder units + 1) := by
  have hone : 0 < one := by exact_mod_cast one_cast_pos
  have hdigits : units * Nat.pow 10 places / one <
      10 ^ (Nat.toDigits 10 (units * Nat.pow 10 places / one)).length :=
    (Nat.length_toDigits_le_iff (by decide) (List.length_pos_of_ne_nil Nat.toDigits_ne_nil)).mp
      le_rfl
  rw [Nat.div_lt_iff_lt_mul hone] at hdigits
  rw [decimalOrder]
  generalize (Nat.toDigits 10 (units * Nat.pow 10 places / one)).length = length at hdigits ⊢
  have hcast : (units : ℚ) * 10 ^ places < 10 ^ length * one := by
    have hrat : ((units * Nat.pow 10 places : Nat) : ℚ) < (10 ^ length * one : Nat) := by
      exact_mod_cast hdigits
    rwa [Nat.cast_mul, cast_ten_pow, Nat.cast_mul, Nat.cast_pow, Nat.cast_ofNat] at hrat
  have horder : (length : Int) - 1 - (places : Nat) + 1 = length - (places : Nat) := by omega
  rw [horder, ← mul_lt_mul_iff_right₀ (by positivity : (0 : ℚ) < 10 ^ places), step_sub, step,
    zpow_natCast, mul_comm]
  exact hcast

theorem floorDecimal_digits_lt (units j : Nat) :
    (floorDecimal units (decimalOrder units - j)).digits < 10 ^ (j + 1) := by
  have hgrid := step_sub (decimalOrder units + 1) (j + 1)
  have hshift : decimalOrder units + 1 - (j + 1 : Nat) = decimalOrder units - j := by
    push_cast
    omega
  rw [hshift] at hgrid
  have hlow := (floorDecimal_bounds units (decimalOrder units - j)).1.trans_lt
    (lt_step_decimalOrder units)
  rw [← hgrid] at hlow
  have hcast := lt_of_mul_lt_mul_right hlow (step_pos _).le
  exact_mod_cast hcast

/-- The decimal of a grid has no more digits than the grid stands for. -/
theorem hasDigits_of_candidate? {units : Nat} {tie : Tie} {j : Nat} {d : Decimal}
    (h : candidate? tie units (decimalOrder units - j) = some d) :
    Decimal.HasDigits (j + 1) d.toRat := by
  have hfloor := floorDecimal_digits_lt units j
  rcases candidate?_eq_some_cases h with rfl | rfl
  · exact ⟨_, hfloor, rfl⟩
  · rcases Nat.lt_or_eq_of_le (Nat.succ_le_of_lt hfloor) with hless | hcarry
    · exact ⟨_, hless, rfl⟩
    · refine ⟨⟨1, decimalOrder units + 1⟩, Nat.one_lt_pow (by omega) (by decide), ?_⟩
      rw [Nat.succ_eq_add_one] at hcarry
      rw [Decimal.toRat, Decimal.toRat]
      dsimp only
      rw [hcarry, Nat.cast_one, one_mul, Nat.cast_pow, Nat.cast_ofNat, ← zpow_natCast,
        ← zpow_add₀ (by norm_num)]
      congr 1
      push_cast
      omega

section Search

variable {units : Nat} (hunits : Representable units) (hpos : 0 < units)

include hpos

/-- A decimal that is rounded to the double is on the grid of its digits, or below a decimal on that
grid that is nearer to the double. -/
theorem exists_on_grid {w : ℚ} (hw : Rounds units (w * one)) {j : Nat}
    (hdigits : Decimal.HasDigits (j + 1) w) :
    ∃ g : Nat, Rounds units (g * step (decimalOrder units - j)) ∧
      (g * step (decimalOrder units - j) = w * one ∨
        w * one < g * step (decimalOrder units - j) ∧
          g * step (decimalOrder units - j) ≤ units) := by
  obtain ⟨d, hd, rfl⟩ := hdigits
  rw [toRat_mul_one] at hw ⊢
  by_cases hpower : decimalOrder units - j ≤ d.power
  · have hshift : d.power - ((d.power - (decimalOrder units - j)).toNat : Nat) =
        decimalOrder units - j := by omega
    have hgrid := step_sub d.power (d.power - (decimalOrder units - j)).toNat
    rw [hshift] at hgrid
    have hequal : ((d.digits * 10 ^ (d.power - (decimalOrder units - j)).toNat : Nat) : ℚ) *
        step (decimalOrder units - j) = d.digits * step d.power := by
      push_cast
      rw [mul_assoc, hgrid]
    exact ⟨_, hequal.symm ▸ hw, .inl hequal⟩
  · have hstart : step (decimalOrder units) ≤ units := step_decimalOrder_le hpos
    have hsmall : d.digits * step d.power < step (decimalOrder units) := by
      have hbound : (d.digits : ℚ) < 10 ^ (j + 1) := by exact_mod_cast hd
      have hnext := step_sub (d.power + (j + 1 : Nat)) (j + 1)
      rw [add_sub_cancel_right] at hnext
      calc d.digits * step d.power < 10 ^ (j + 1) * step d.power :=
            mul_lt_mul_of_pos_right hbound (step_pos _)
        _ = step (d.power + (j + 1 : Nat)) := hnext
        _ ≤ step (decimalOrder units) := step_le_step (by push_cast; omega)
    have hequal : ((10 ^ j : Nat) : ℚ) * step (decimalOrder units - j) =
        step (decimalOrder units) := by
      push_cast
      exact step_sub _ j
    refine ⟨10 ^ j, ?_, .inr ⟨?_, ?_⟩⟩
    · rw [hequal]
      exact hw.of_le_of_le hsmall.le hstart
    · rwa [hequal]
    · rwa [hequal]

include hunits

/-- The search finds the shortest decimal. -/
theorem isShortest_shortest : IsShortest units (shortest .up units).toRat := by
  refine ⟨rounds_shortest .up hunits hpos, ?_⟩
  obtain ⟨j, -, htaken, hnone⟩ := exists_candidate?_eq_search .up hunits hpos
  rw [shortest, Decimal.toRat_strip]
  refine ⟨j + 1, hasDigits_of_candidate? htaken, fun w hw => ⟨fun m hm => ?_, ?_⟩⟩
  · -- A decimal with fewer digits would have been found on a coarser grid.
    by_contra hfew
    cases m with
    | zero =>
      obtain ⟨d, hd, rfl⟩ := hm
      exact absurd (Nat.lt_one_iff.mp hd) (digits_ne_zero_of_rounds hunits hpos hw)
    | succ i =>
      obtain ⟨g, hg, -⟩ := exists_on_grid hpos hw hm
      exact candidate?_ne_none_of_rounds hunits hpos hg (hnone i (by omega))
  · intro hdigits
    obtain ⟨g, hg, hwhere⟩ := exists_on_grid hpos hw hdigits
    obtain ⟨hnear, htie⟩ := candidate?_up_nearest hunits hpos htaken hg
    rcases hwhere with hequal | ⟨hless, hle⟩
    · rw [hequal] at hnear htie
      exact ⟨hnear, fun h => le_of_mul_le_mul_right (htie h) one_cast_pos⟩
    · have hfar : |g * step (decimalOrder units - j) - units| < |w * one - units| := by
        rw [abs_of_nonpos (by linarith), abs_of_nonpos (by linarith)]
        linarith
      exact ⟨hnear.trans hfar.le, fun h => absurd h (hnear.trans_lt hfar).ne⟩

/-- The digits of a shortest decimal do not end with a zero. -/
theorem shortest_digits_mod_ten (tie : Tie) : (shortest tie units).digits % 10 ≠ 0 := by
  obtain ⟨j, hj, htaken, -⟩ := exists_candidate?_eq_search tie hunits hpos
  have hrounds := (roundsTo_iff hunits hpos).mp (roundsTo_of_candidate? htaken)
  have hzero := digits_ne_zero_of_rounds hunits hpos hrounds
  have hfloor := floorDecimal_digits_lt units j
  refine Decimal.strip_digits_mod_ten (by omega : j + 2 ≤ 400) hzero ?_
  rcases candidate?_eq_some_cases htaken with hd | hd
  · rw [hd, Nat.pow_succ]
    omega
  · rw [hd, Nat.pow_succ]
    dsimp only
    omega

end Search

/-! ### Integers -/

theorem exists_one_eq_two_pow : ∃ e, one = 2 ^ e := by
  unfold one
  generalize 1074 = e
  exact ⟨e, rfl⟩

section Integers

variable {k : Nat} (hsmall : k < 2 ^ 53)

include hsmall

theorem representable_mul_one : Representable (k * one) := by
  obtain ⟨e, he⟩ := exists_one_eq_two_pow
  rw [he]
  exact representable_mul hsmall.le e

theorem gap_mul_one_le : gap (k * one) ≤ one := by
  obtain ⟨e, he⟩ := exists_one_eq_two_pow
  have hlt : k * 2 ^ e < 2 ^ (53 + e) := by
    rw [Nat.pow_add]
    exact Nat.mul_lt_mul_of_pos_right hsmall (Nat.two_pow_pos e)
  rw [he]
  exact Nat.pow_le_pow_right (by decide) (gapLog_le_of_lt hlt)

/-- What is rounded to an integer of at most 53 bits is at most a half away from it. -/
theorem near_of_rounds {w : ℚ} (h : Rounds (k * one) (w * one)) : 2 * w ≤ 2 * k + 1 ∧
    2 * (k : ℚ) ≤ 2 * w + 1 := by
  have hgap : (gap (k * one) : ℚ) ≤ one := by exact_mod_cast gap_mul_one_le hsmall
  have hbelow : (below (k * one) : ℚ) ≤ 2 * gap (k * one) := by
    exact_mod_cast (below_bounds (k * one)).2
  have hlow := h.low
  have hhigh := h.high
  rw [Nat.cast_mul] at hlow hhigh
  constructor
  · refine le_of_mul_le_mul_right ?_ one_cast_pos
    linarith
  · refine le_of_mul_le_mul_right ?_ one_cast_pos
    linarith

/-- No decimal that is rounded to a small integer has fewer digits than it. -/
theorem hasDigits_of_rounds (hk : k ≠ 0) {w : ℚ} (h : Rounds (k * one) (w * one)) {m : Nat}
    (hdigits : Decimal.HasDigits m w) : Decimal.HasDigits m k := by
  obtain ⟨hhigh, hlow⟩ := near_of_rounds hsmall h
  obtain ⟨d, hd, hw⟩ := hdigits
  by_cases hpower : 0 ≤ d.power
  · have hinteger : w = (d.digits * 10 ^ d.power.toNat : Nat) := by
      rw [← hw, Decimal.toRat, ten_zpow_of_nonneg hpower]
      push_cast
      rfl
    rw [hinteger] at hhigh hlow
    have hequal : d.digits * 10 ^ d.power.toNat = k := by
      have hhigh' : 2 * (d.digits * 10 ^ d.power.toNat) ≤ 2 * k + 1 := by exact_mod_cast hhigh
      have hlow' : 2 * k ≤ 2 * (d.digits * 10 ^ d.power.toNat) + 1 := by exact_mod_cast hlow
      omega
    exact ⟨d, hd, by rw [hw, hinteger, hequal]⟩
  · have htenth : 10 * w ≤ d.digits := by
      have hone : (10 : ℚ) ^ (d.power + 1) ≤ 1 :=
        zpow_le_one_of_nonpos₀ (by norm_num) (by omega)
      rw [zpow_add_one₀ (by norm_num)] at hone
      have hscaled := mul_le_mul_of_nonneg_left hone (Nat.cast_nonneg (α := ℚ) d.digits)
      rw [← hw, Decimal.toRat]
      linarith
    have hbound : 10 * (2 * (k : ℚ)) ≤ 2 * d.digits + 10 := by linarith
    have hnat : 10 * (2 * k) ≤ 2 * d.digits + 10 := by exact_mod_cast hbound
    refine ⟨⟨k, 0⟩, ?_, by simp [Decimal.toRat]⟩
    have hpos : 0 < k := Nat.pos_of_ne_zero hk
    dsimp only
    omega

/-- An integer of at most 53 bits is its own shortest decimal. -/
theorem isShortest_of_small (hk : k ≠ 0) : IsShortest (k * one) k := by
  have hgap : (0 : ℚ) < gap (k * one) := by exact_mod_cast gap_pos (k * one)
  have hbelow : (0 : ℚ) < below (k * one) := by exact_mod_cast (below_bounds (k * one)).1
  have hrounds : Rounds (k * one) ((k : ℚ) * one) := by
    rw [← Nat.cast_mul]
    exact ⟨by linarith, by linarith, by rintro (h | h) <;> linarith⟩
  have hzero : |(k : ℚ) * one - (k * one : Nat)| = 0 := by
    rw [Nat.cast_mul, sub_self, abs_zero]
  have hexists : ∃ n, Decimal.HasDigits n (k : ℚ) :=
    ⟨k, ⟨k, 0⟩, Nat.lt_pow_self (by decide), by simp [Decimal.toRat]⟩
  obtain ⟨n, hn, hfewest⟩ : ∃ n, Decimal.HasDigits n (k : ℚ) ∧
      ∀ m, Decimal.HasDigits m (k : ℚ) → n ≤ m := by
    classical exact ⟨Nat.find hexists, Nat.find_spec hexists, fun m => Nat.find_min' hexists⟩
  refine ⟨hrounds, n, hn, fun w hw => ⟨fun m hm => ?_, fun _ => ⟨?_, fun hequal => ?_⟩⟩⟩
  · exact hfewest m (hasDigits_of_rounds hsmall hk hw hm)
  · rw [hzero]
    exact abs_nonneg _
  · rw [hzero, eq_comm, abs_eq_zero, sub_eq_zero, Nat.cast_mul] at hequal
    exact (mul_right_cancel₀ one_cast_pos.ne' hequal).le

end Integers

end Double

end Phrasebook
