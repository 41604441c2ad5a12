import Phrasebook.Proofs.Number.Rounding

/-!
# Nearest doubles

Of two doubles the larger one is ahead by a gap at least, so no double is nearer to a number than
the one in whose interval it lies.
-/

namespace Phrasebook.Double

/-- A sign and a count of units are a double. -/
structure Valid (x : Double) : Prop where
  representable : Representable x.units
  lt_limit : x.units < limit

/-- The sign of a double. -/
def sign (x : Double) : ℚ := if x.negative then -1 else 1

/-- The number that a double is. -/
def toRat (x : Double) : ℚ := x.sign * (x.units / one)

/-- No double is nearer to a number than this one. If another one is as near, the last bit of this
one is zero. -/
def IsNearest (x : Double) (q : ℚ) : Prop :=
  x.Valid ∧ ∀ y : Double, y.Valid → |q - x.toRat| ≤ |q - y.toRat| ∧
    (|q - x.toRat| = |q - y.toRat| → y.toRat = x.toRat ∨ significand x.units % 2 = 0)

section Neighbours

variable {units other : Nat} (hunits : Representable units) (hother : Representable other)

include hother

/-- A double below a multiple of a power of two is a whole power below, if the multiple has more
than 53 significant bits below the power. -/
theorem add_two_pow_le {e : Nat} (hdvd : 2 ^ e ∣ units) (hstart : 2 ^ (52 + e) + 2 ^ e ≤ units)
    (hlt : other < units) : other + 2 ^ e ≤ units := by
  rcases Nat.lt_or_ge (gapLog other) e with hfine | hcoarse
  · have hsmall : other < 2 ^ (52 + e) :=
      (lt_mul_gap other).trans_le (by
        rw [gap, Nat.pow_eq, ← Nat.pow_add]
        exact Nat.pow_le_pow_right (by decide) (by omega))
    omega
  · have hmultiple : 2 ^ e ∣ other := (Nat.pow_dvd_pow 2 hcoarse).trans hother
    have hdifference := Nat.le_of_dvd (Nat.sub_pos_of_lt hlt) (Nat.dvd_sub hdvd hmultiple)
    omega

include hunits

/-- The double above is a gap away. -/
theorem add_gap_le (hlt : units < other) : units + gap units ≤ other := by
  have hlog : gapLog units ≤ gapLog other := by
    apply gapLog_le_of_lt
    have hhigh := lt_mul_gap other
    rw [gap, Nat.pow_eq, ← Nat.pow_add] at hhigh
    exact hlt.trans hhigh
  have hmultiple : gap units ∣ other := (Nat.pow_dvd_pow 2 hlog).trans hother
  have hdifference := Nat.le_of_dvd (Nat.sub_pos_of_lt hlt) (Nat.dvd_sub hmultiple hunits)
  omega

/-- The double below is half of `below` away. -/
theorem add_below_le (hlt : other < units) : 2 * other + below units ≤ 2 * units := by
  have hgap : gap units = 2 ^ gapLog units := rfl
  rcases below_cases units with ⟨hbelow, hinside⟩ | ⟨e, hlog, hstart, hbelow⟩
  · rw [hbelow]
    by_cases hzero : gapLog units = 0
    · rw [hgap, hzero]
      omega
    · have hnext := hunits.inside_of_binade (hinside hzero)
      rw [hgap, ← Nat.pow_add] at hnext
      have hle := add_two_pow_le hother hunits hnext hlt
      rw [← hgap] at hle
      omega
  · obtain ⟨hhalfGap, hunitsHalf⟩ := hunits.start_of_binade hlog hstart
    have hle := add_two_pow_le hother (e := e) (Dvd.intro_left _ hunitsHalf.symm)
      (by rw [hunitsHalf, Nat.pow_add]; omega) hlt
    rw [hbelow, hhalfGap]
    omega

end Neighbours

/-- No other count of a double is nearer to what is in the interval of a double. -/
theorem Rounds.dist_le {units other : Nat} {v : ℚ} (h : Rounds units v)
    (hunits : Representable units) (hother : Representable other) (hne : other ≠ units) :
    |v - units| ≤ |v - other| ∧ (|v - units| = |v - other| → significand units % 2 = 0) := by
  have hlow := h.low
  have hhigh := h.high
  have hbelow : (0 : ℚ) < below units ∧ (below units : ℚ) ≤ 2 * gap units := by
    exact_mod_cast below_bounds units
  -- Only on the side of the other double can the distances be equal.
  rcases Nat.lt_or_gt_of_ne hne with hlt | hgt
  · have hnext : 2 * (other : ℚ) + below units ≤ 2 * units := by
      exact_mod_cast add_below_le hunits hother hlt
    rw [abs_of_pos (a := v - other) (by linarith)]
    rcases abs_cases (v - units) with ⟨habs, hsign⟩ | ⟨habs, hsign⟩
    · rw [habs]
      exact ⟨by linarith, fun hequal => absurd hequal (by linarith)⟩
    · rw [habs]
      exact ⟨by linarith, fun hequal => h.tie (.inl (by linarith))⟩
  · have hnext : (units : ℚ) + gap units ≤ other := by
      exact_mod_cast add_gap_le hunits hother hgt
    rw [abs_of_neg (a := v - other) (by linarith)]
    rcases abs_cases (v - units) with ⟨habs, hsign⟩ | ⟨habs, hsign⟩
    · rw [habs]
      exact ⟨by linarith, fun hequal => h.tie (.inr (by linarith))⟩
    · rw [habs]
      exact ⟨by linarith, fun hequal => absurd hequal (by linarith)⟩

theorem abs_sign (x : Double) : |x.sign| = 1 := by
  rw [sign]
  split_ifs <;> norm_num

theorem sign_eq_or_neg (x y : Double) : y.sign = x.sign ∨ y.sign = -x.sign := by
  rw [sign, sign]
  split_ifs <;> norm_num

theorem abs_toRat (x : Double) : |x.toRat| = x.units / one := by
  rw [toRat, abs_mul, abs_sign, one_mul, abs_of_nonneg]
  exact div_nonneg (Nat.cast_nonneg _) one_cast_pos.le

theorem isNearest_zero {x : Double} (hx : x.Valid) (h : x.units = 0) : x.IsNearest 0 := by
  have hzero : x.toRat = 0 := by
    rw [toRat, h, Nat.cast_zero, zero_div, mul_zero]
  refine ⟨hx, fun y _ => ⟨?_, fun _ => .inr ?_⟩⟩
  · rw [hzero, sub_zero, abs_zero]
    exact abs_nonneg _
  · rw [significand, h, Nat.zero_div]

/-- The double whose interval a number is in is nearest to it. -/
theorem isNearest_of_rounds {x : Double} (hx : x.Valid) (hpos : 0 < x.units) {q : ℚ}
    (h : Rounds x.units (q * one)) : x.IsNearest (x.sign * q) := by
  have hq : 0 < q := (mul_pos_iff_of_pos_right one_cast_pos).mp (h.pos hx.representable hpos)
  have hscale (n : Nat) : |q - n / one| = |q * one - n| / one := by
    rw [← abs_of_pos one_cast_pos, ← abs_div, abs_of_pos one_cast_pos, sub_div,
      mul_div_cancel_right₀ _ one_cast_pos.ne']
  have hself : |x.sign * q - x.toRat| = |q - x.units / one| := by
    rw [toRat, ← mul_sub, abs_mul, abs_sign, one_mul]
  refine ⟨hx, fun y hy => ?_⟩
  have hother : |q - y.units / one| ≤ |x.sign * q - y.toRat| := by
    have hsigned := abs_abs_sub_abs_le (x.sign * q) y.toRat
    rwa [abs_mul, abs_sign, one_mul, abs_of_pos hq, abs_toRat] at hsigned
  by_cases hsame : y.units = x.units
  · rw [hsame] at hother
    rw [hself]
    refine ⟨hother, fun hequal => .inl ?_⟩
    have hunits : (0 : ℚ) < x.units / one := div_pos (by exact_mod_cast hpos) one_cast_pos
    rcases sign_eq_or_neg x y with hsign | hsign
    · rw [toRat, toRat, hsame, hsign]
    · have hapart : |x.sign * q - y.toRat| = q + x.units / one := by
        have hfactor : x.sign * q - y.toRat = x.sign * (q + x.units / one) := by
          rw [toRat, hsign, hsame]
          ring
        rw [hfactor, abs_mul, abs_sign, one_mul, abs_of_pos (add_pos hq hunits)]
      rw [hapart] at hequal
      rcases abs_cases (q - x.units / one) with ⟨habs, -⟩ | ⟨habs, -⟩ <;> linarith
  · obtain ⟨hle, htie⟩ := h.dist_le hx.representable hy.representable hsame
    have hdist : |q - x.units / one| ≤ |q - y.units / one| := by
      rw [hscale, hscale]
      exact div_le_div_of_nonneg_right hle one_cast_pos.le
    rw [hself]
    refine ⟨hdist.trans hother, fun hequal => .inr (htie ?_)⟩
    have hequal' : |q - x.units / one| = |q - y.units / one| := le_antisymm hdist (hequal ▸ hother)
    rw [hscale, hscale] at hequal'
    exact (div_left_inj' one_cast_pos.ne').mp hequal'

end Phrasebook.Double
