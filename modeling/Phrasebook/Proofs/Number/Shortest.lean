import Phrasebook.Proofs.Number.Rounding

/-!
# Shortest decimals read back

The search for the shortest decimal of a double tries seventeen grids of decimals, each ten times as
fine as the one before. On the last of them neighbouring decimals are less than a gap between
doubles apart, so one of the two neighbours of the double is rounded to it.
-/

namespace Phrasebook

theorem Decimal.toRat_strip (fuel : Nat) (d : Decimal) : (d.strip fuel).toRat = d.toRat := by
  induction fuel generalizing d with
  | zero => rfl
  | succ fuel ih =>
    rw [strip]
    split_ifs with hzero
    · have hdigits : (d.digits : ℚ) = 10 * (d.digits / 10 : Nat) := by
        have hnat : d.digits = 10 * (d.digits / 10) := by omega
        exact_mod_cast hnat
      rw [ih, toRat, toRat, hdigits, zpow_add_one₀ (by norm_num)]
      ring
    · rfl

namespace Double

/-! ### Grids of decimals -/

/-- The distance between decimals with a power of ten, in units. -/
def step (power : Int) : ℚ := 10 ^ power * one

theorem step_sub (power : Int) (n : Nat) : 10 ^ n * step (power - n) = step power := by
  rw [step, step, ← mul_assoc, ← zpow_natCast, ← zpow_add₀ (by norm_num), add_sub_cancel]

theorem toRat_mul_one (d : Decimal) : d.toRat * one = d.digits * step d.power := mul_assoc _ _ _

/-- A count of units is between the decimal below it and the next one. -/
theorem floorDecimal_bounds (units : Nat) (power : Int) :
    (floorDecimal units power).digits * step power ≤ units ∧
      (units : ℚ) < ((floorDecimal units power).digits + 1 : Nat) * step power := by
  have hscale {n d : Nat} {scale : ℚ} (hd : 0 < d) (hscale : 0 < scale)
      (hn : (n : ℚ) * scale = units) (hstep : (d : ℚ) * scale = step power) :
      (n / d : Nat) * step power ≤ units ∧ (units : ℚ) < (n / d + 1 : Nat) * step power := by
    have hlow : ((n / d : Nat) : ℚ) * d ≤ n := by exact_mod_cast Nat.div_mul_le_self n d
    have hhigh : (n : ℚ) < (n / d + 1 : Nat) * d := by
      exact_mod_cast Nat.lt_mul_of_div_lt (Nat.lt_succ_self _) hd
    rw [← hn, ← hstep, ← mul_assoc, ← mul_assoc]
    exact ⟨mul_le_mul_of_nonneg_right hlow hscale.le, mul_lt_mul_of_pos_right hhigh hscale⟩
  have hone : 0 < one := by exact_mod_cast one_cast_pos
  rw [floorDecimal]
  split_ifs with hpower
  · apply hscale (Nat.mul_pos hone (Nat.pow_pos (by decide))) one_pos (mul_one _)
    rw [Nat.cast_mul, Nat.cast_pow, Nat.cast_ofNat, mul_one, step, ten_zpow_of_nonneg hpower,
      mul_comm]
  · apply hscale hone (zpow_pos (by norm_num : (0 : ℚ) < 10) power)
    · rw [Nat.cast_mul, cast_ten_pow, mul_assoc, ten_pow_mul_zpow hpower, mul_one]
    · rw [step, mul_comm]

/-- The first significant digit of a count of units is not zero. -/
theorem step_decimalOrder_le {units : Nat} (hpos : 0 < units) :
    step (decimalOrder units) ≤ units := by
  have hone : 0 < one := by exact_mod_cast one_cast_pos
  have hscaled : units * Nat.pow 10 places / one ≠ 0 := by
    have hplaces : one ≤ Nat.pow 10 places := by
      have hcast : (one : ℚ) ≤ (Nat.pow 10 places : Nat) := by
        rw [one_cast, cast_ten_pow]
        exact (pow_le_pow_right₀ (by norm_num) (by decide)).trans (two_pow_le_ten_pow places)
      exact_mod_cast hcast
    have hunits : one ≤ units * Nat.pow 10 places :=
      hplaces.trans (Nat.le_mul_of_pos_left _ hpos)
    exact (Nat.div_pos hunits hone).ne'
  rw [decimalOrder]
  have hfirst := (Nat.mul_le_mul_right one (toDigits_bounds hscaled).1).trans
    (Nat.div_mul_le_self (units * Nat.pow 10 places) one)
  have hlength : 0 < (Nat.toDigits 10 (units * Nat.pow 10 places / one)).length :=
    List.length_pos_of_ne_nil Nat.toDigits_ne_nil
  generalize (Nat.toDigits 10 (units * Nat.pow 10 places / one)).length = length at hfirst hlength ⊢
  have hcast : (10 : ℚ) ^ (length - 1) * one ≤ units * 10 ^ places := by
    have hrat : ((10 ^ (length - 1) * one : Nat) : ℚ) ≤ (units * Nat.pow 10 places : Nat) := by
      exact_mod_cast hfirst
    rwa [Nat.cast_mul, Nat.cast_pow, Nat.cast_ofNat, Nat.cast_mul, cast_ten_pow] at hrat
  rw [← mul_le_mul_iff_right₀ (by positivity : (0 : ℚ) < 10 ^ places), step_sub, step,
    mul_comm ((10 : ℚ) ^ places)]
  have hpower : (10 : ℚ) ^ ((length : Int) - 1) = 10 ^ (length - 1) := by
    rw [← zpow_natCast]
    congr 1
    omega
  rw [hpower]
  exact hcast

/-! ### The search -/

section Fine

variable {units digits : Nat} {w : ℚ}

/-- If neighbouring decimals are near enough to each other, one of the two around a double is
rounded to it. -/
theorem rounds_of_fine (hlow : digits * w ≤ units) (hhigh : (units : ℚ) < (digits + 1 : Nat) * w)
    (hfine : 4 * w < below units + 2 * gap units) :
    Rounds units (digits * w) ∨ Rounds units ((digits + 1 : Nat) * w) := by
  have hgap : (0 : ℚ) < gap units := by exact_mod_cast gap_pos units
  have hbelow : (0 : ℚ) < below units := by exact_mod_cast (below_bounds units).1
  have hnext : ((digits + 1 : Nat) : ℚ) * w = digits * w + w := by
    rw [Nat.cast_succ, add_mul, one_mul]
  rw [hnext] at hhigh ⊢
  -- No middle is met, so the tie rule has nothing to say.
  by_cases hnear : 4 * (units : ℚ) - below units < 4 * (digits * w)
  · exact .inl ⟨hnear.le, by linarith, by rintro (h | h) <;> linarith⟩
  · exact .inr ⟨by linarith, by linarith, by rintro (h | h) <;> linarith⟩

/-- Decimals of seventeen digits are near enough to each other. -/
theorem fine_of_le (hunits : Representable units) (h : 10 ^ 16 * w ≤ units) :
    4 * w < below units + 2 * gap units := by
  have hgap : (0 : ℚ) < gap units := by exact_mod_cast gap_pos units
  have hsignificand : (units : ℚ) = significand units * gap units := by
    exact_mod_cast hunits.significand_mul.symm
  rcases below_cases units with ⟨hbelow, -⟩ | ⟨e, -, hstart, hbelow⟩
  · have hbound : (units : ℚ) < 2 ^ 53 * gap units := by exact_mod_cast lt_mul_gap units
    rw [hbelow]
    push_cast
    linarith
  · rw [hstart] at hsignificand
    rw [hbelow]
    push_cast at hsignificand
    linarith

end Fine

/-- A decimal that is rounded to the double is found on a grid if one of the two neighbours of the
double is, and otherwise none is found. -/
theorem candidate?_cases (tie : Tie) (units : Nat) (power : Int) :
    (∃ d, candidate? tie units power = some d ∧ roundsTo units d = true) ∨
      candidate? tie units power = none ∧ roundsTo units (floorDecimal units power) = false ∧
        roundsTo units ⟨(floorDecimal units power).digits + 1, power⟩ = false := by
  unfold candidate?
  dsimp only
  generalize floorDecimal units power = low
  cases hlow : roundsTo units low <;> cases hhigh : roundsTo units ⟨low.digits + 1, power⟩
  · exact .inr ⟨rfl, rfl, rfl⟩
  · exact .inl ⟨_, rfl, hhigh⟩
  · exact .inl ⟨_, rfl, hlow⟩
  · left
    generalize compareQuarters (8 * units) ⟨low.digits + (low.digits + 1), power⟩ = order
    cases order with
    | lt => exact ⟨_, rfl, hlow⟩
    | gt => exact ⟨_, rfl, hhigh⟩
    | eq =>
      cases tie with
      | up => exact ⟨_, rfl, hhigh⟩
      | even =>
        refine ⟨_, rfl, ?_⟩
        split_ifs
        · exact hlow
        · exact hhigh

theorem roundsTo_of_candidate? {tie : Tie} {units : Nat} {power : Int} {d : Decimal}
    (h : candidate? tie units power = some d) : roundsTo units d = true := by
  rcases candidate?_cases tie units power with ⟨found, hfound, hrounds⟩ | ⟨hnone, -⟩
  · rw [h] at hfound
    cases hfound
    exact hrounds
  · rw [h] at hnone
    cases hnone

theorem candidate?_ne_none {tie : Tie} {units : Nat} {power : Int}
    (h : roundsTo units (floorDecimal units power) = true ∨
      roundsTo units ⟨(floorDecimal units power).digits + 1, power⟩ = true) :
    candidate? tie units power ≠ none := by
  intro hnone
  rcases candidate?_cases tie units power with ⟨d, hd, -⟩ | ⟨-, hlow, hhigh⟩
  · rw [hnone] at hd
    cases hd
  · rw [hlow, hhigh] at h
    rcases h with h | h <;> cases h

/-- The search takes the decimal of the first grid that has one, if one of its grids has. -/
theorem exists_candidate?_eq_shortestFrom {tie : Tie} {units : Nat} (n : Nat) :
    ∀ {fuel : Nat} {power : Int}, n < fuel → candidate? tie units (power - n) ≠ none →
      ∃ j ≤ n, candidate? tie units (power - j) = some (shortestFrom tie units fuel power) ∧
        ∀ i < j, candidate? tie units (power - i) = none := by
  induction n with
  | zero =>
    intro fuel power hfuel hfound
    obtain ⟨fuel, rfl⟩ := Nat.exists_eq_add_of_lt hfuel
    obtain ⟨d, hd⟩ := Option.ne_none_iff_exists'.mp hfound
    refine ⟨0, le_rfl, ?_, by simp⟩
    rw [Nat.cast_zero, sub_zero] at hd ⊢
    rw [Nat.zero_add, shortestFrom, hd]
    rfl
  | succ n ih =>
    intro fuel power hfuel hfound
    obtain ⟨fuel, rfl⟩ := Nat.exists_eq_succ_of_ne_zero (Nat.ne_zero_of_lt hfuel)
    have hnext (k : Nat) : power - (k + 1 : Nat) = power - 1 - k := by
      rw [Nat.cast_succ, ← sub_sub, sub_right_comm]
    rw [shortestFrom]
    cases hd : candidate? tie units power with
    | some d => exact ⟨0, Nat.zero_le _, by simpa using hd, by simp⟩
    | none =>
      rw [hnext] at hfound
      obtain ⟨j, hj, htaken, hnone⟩ := ih (Nat.lt_of_succ_lt_succ hfuel) hfound
      refine ⟨j + 1, Nat.succ_le_succ hj, by rwa [hnext], fun i hi => ?_⟩
      cases i with
      | zero => simpa using hd
      | succ i =>
        rw [hnext]
        exact hnone i (Nat.lt_of_succ_lt_succ hi)

/-- The search takes the decimal of the first grid that has one. Seventeen grids are enough. -/
theorem exists_candidate?_eq_search (tie : Tie) {units : Nat} (hunits : Representable units)
    (hpos : 0 < units) :
    ∃ j ≤ 16, candidate? tie units (decimalOrder units - (j : Nat)) =
        some (shortestFrom tie units 17 (decimalOrder units)) ∧
      ∀ i < j, candidate? tie units (decimalOrder units - (i : Nat)) = none := by
  have hfine : 10 ^ 16 * step (decimalOrder units - (16 : Nat)) ≤ (units : ℚ) := by
    rw [step_sub]
    exact step_decimalOrder_le hpos
  obtain ⟨hlow, hhigh⟩ := floorDecimal_bounds units (decimalOrder units - (16 : Nat))
  refine exists_candidate?_eq_shortestFrom 16 (by decide) (candidate?_ne_none ?_)
  rw [roundsTo_iff hunits hpos, roundsTo_iff hunits hpos, toRat_mul_one, toRat_mul_one]
  exact rounds_of_fine hlow hhigh (fine_of_le hunits hfine)

/-- The shortest decimal of a double is rounded to it. -/
theorem rounds_shortest (tie : Tie) {units : Nat} (hunits : Representable units)
    (hpos : 0 < units) : Rounds units ((shortest tie units).toRat * one) := by
  obtain ⟨j, -, htaken, -⟩ := exists_candidate?_eq_search tie hunits hpos
  rw [shortest, Decimal.toRat_strip, ← roundsTo_iff hunits hpos]
  exact roundsTo_of_candidate? htaken

end Double

end Phrasebook
