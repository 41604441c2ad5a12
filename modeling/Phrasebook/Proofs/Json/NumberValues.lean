import Phrasebook.Proofs.Json.NumberTexts
import Phrasebook.Proofs.Number.DecimalValues
import Phrasebook.Proofs.Number.Minimal

/-!
# Texts of equal numbers

One number can be spelled in many ways, and there are three ways to read a spelling. Integers of 64
bits that are spelled without a point and without an exponent are kept as they are. What has an
exponent beyond all bounds is zero. Everything else is rounded to a double. So spellings of one
number can have different texts, but only if they are read in different ways: all that are rounded
have the text of the double, and that is the number itself exactly if it is the shortest decimal of
the double. Integers below 2⁵³ are.

## Main definitions

* `Json.Numeral.toRat`: the number that is spelled by a numeral.
* `Json.Numeral.IsExact`, `Json.Numeral.IsVanishing`: numerals that are not rounded.
* `Json.IsReadAs`: a text is read as a number somewhere in a document.
* `Double.IsFaithful`, `Double.IsNegligible`: a number is the shortest decimal of a double, or at
  most half of the smallest one.

## Main results

* `Json.Numeral.IsTakenAs.cases`: the three ways to read a numeral.
* `Double.shortest_eq_of_text`, `Double.text_eq_of_shortest`: the doubles that are written like an
  integer.
* `Json.number_texts_agree_iff`: which spellings of one number have the same text.
-/

namespace Phrasebook

open Text

/-! ### Faithful and negligible numbers -/

namespace Double

/-- A number is up to its sign the shortest decimal of a double. -/
def IsFaithful (q : ℚ) : Prop := ∃ x : Double, x.Valid ∧ 0 < x.units ∧ IsShortest x.units |q|

/-- A number is at most half of the smallest positive double. -/
def IsNegligible (q : ℚ) : Prop := 2 * (|q| * one) ≤ 1

theorem isNegligible_zero : IsNegligible 0 := by
  rw [IsNegligible, abs_zero, zero_mul, mul_zero]
  exact zero_le_one

/-- Of all integers only zero is negligible. -/
theorem isNegligible_intCast_iff {k : Int} : IsNegligible k ↔ k = 0 := by
  constructor
  · intro hsmall
    by_contra hk
    have hone : (1 : ℚ) ≤ one := by
      exact_mod_cast Nat.one_le_iff_ne_zero.mpr (Nat.cast_ne_zero.mp one_cast_pos.ne')
    have habs : (1 : ℚ) ≤ |(k : ℚ)| := by exact_mod_cast Int.one_le_abs hk
    have hproduct := one_le_mul_of_one_le_of_one_le habs hone
    rw [IsNegligible] at hsmall
    linarith
  · rintro rfl
    rw [Int.cast_zero]
    exact isNegligible_zero

/-- Integers below 2⁵³ are the shortest decimals of their doubles. -/
theorem isFaithful_of_small {k : Int} (hk : k ≠ 0) (hsmall : |(k : ℚ)| < 2 ^ 53) :
    IsFaithful k := by
  have habs : |(k : ℚ)| = k.natAbs := by rw [Nat.cast_natAbs, Int.cast_abs]
  rw [habs] at hsmall
  have hnat : k.natAbs < 2 ^ 53 := by exact_mod_cast hsmall
  have hlimit : ((k.natAbs * one : Nat) : ℚ) < limit := by
    rw [Nat.cast_mul, one_cast, limit_cast]
    calc (k.natAbs : ℚ) * 2 ^ 1074 < 2 ^ 53 * 2 ^ 1074 :=
          mul_lt_mul_of_pos_right hsmall (by positivity)
      _ = 2 ^ (53 + 1074) := (pow_add 2 53 1074).symm
      _ ≤ 2 ^ 2098 := pow_le_pow_right₀ (by norm_num) (by norm_num)
  have hone : 0 < one := by exact_mod_cast one_cast_pos
  refine ⟨⟨false, k.natAbs * one⟩, ⟨representable_mul_one hnat, by exact_mod_cast hlimit⟩,
    Nat.mul_pos (Int.natAbs_pos.mpr hk) hone, ?_⟩
  rw [habs]
  exact isShortest_of_small hnat (Int.natAbs_ne_zero.mpr hk)

theorem negative_of_ofDecimal? {negative : Bool} {digits : Nat} {power : Int} {x : Double}
    (h : ofDecimal? negative digits power = some x) : x.negative = negative := by
  rw [ofDecimal?_eq] at h
  split_ifs at h <;> cases h <;> rfl

end Double

/-! ### Ways to read a numeral -/

namespace Json

theorem exceedingDigits?_ne_none {digits : Text} (h : exponentBound < digitsValue digits) :
    exceedingDigits? digits ≠ none := by
  rw [exceedingDigits?, Ne, List.find?_eq_none, not_forall]
  have hnil : digits ≠ [] := by
    rintro rfl
    exact absurd h (by decide)
  refine ⟨digits.length, fun hnone => hnone ?_ ?_⟩
  · rw [List.mem_map]
    exact ⟨digits.length - 1, by simpa using List.length_pos_of_ne_nil hnil,
      Nat.succ_pred_eq_of_pos (List.length_pos_of_ne_nil hnil)⟩
  · simpa using h

namespace Numeral

/-- The number that is spelled by a numeral. -/
def toRat (n : Numeral) : ℚ := (if n.negative then -1 else 1) * n.magnitude.toRat

/-- A numeral has no point and no exponent, and its number has at most 64 bits. -/
def IsExact (n : Numeral) : Prop :=
  n.fraction = none ∧ n.exponent = none ∧ -2 ^ 63 ≤ n.toRat ∧ n.toRat < 2 ^ 64

/-- The exponent of a numeral is beyond the bound. Such a numeral is read as zero or not at all. -/
def IsVanishing (n : Numeral) : Prop := ∃ e ∈ n.exponent, exponentBound < digitsValue e.digits

theorem magnitude_nonneg (n : Numeral) : 0 ≤ n.magnitude.toRat :=
  mul_nonneg (Nat.cast_nonneg _) (zpow_nonneg (by norm_num) _)

theorem abs_toRat (n : Numeral) : |n.toRat| = n.magnitude.toRat := by
  rw [toRat, abs_mul, abs_of_nonneg n.magnitude_nonneg]
  split_ifs <;> simp

theorem units_eq_zero_iff {n : Numeral} {x : Double}
    (h : Double.ofDecimal? n.negative n.magnitude.digits n.magnitude.power = some x) :
    x.units = 0 ↔ Double.IsNegligible n.toRat := by
  rw [Double.units_eq_zero_iff h, Double.IsNegligible, abs_toRat]

/-- The sign of a number other than zero can be told from its value. -/
theorem negative_eq {n : Numeral} (h : n.toRat ≠ 0) : n.negative = decide (n.toRat < 0) := by
  have hpos : 0 < n.magnitude.toRat := by
    rw [← abs_toRat]
    exact abs_pos.mpr h
  rw [toRat]
  cases n.negative with
  | true => simpa using hpos
  | false => simpa using hpos.le

theorem IsInteger.isExact {n : Numeral} {value : Int} (h : n.IsInteger value) : n.IsExact := by
  obtain ⟨⟨hlow, hhigh⟩, -, -⟩ := of_integer?_eq_some h.2.2
  refine ⟨h.1, h.2.1, ?_, ?_⟩
  · rw [toRat, ← h.cast_eq]
    exact_mod_cast hlow
  · rw [toRat, ← h.cast_eq]
    exact_mod_cast hhigh

/-- An exact numeral is an integer of 64 bits, except for minus zero. -/
theorem IsExact.cases {n : Numeral} (h : n.IsExact) :
    (∃ value, n.IsInteger value) ∨ n.toRat = 0 := by
  obtain ⟨hfraction, hexponent, hlow, hhigh⟩ := h
  have hvalue : n.magnitude.toRat = digitsValue n.whole := by
    simp [magnitude, places, Decimal.toRat, hfraction, hexponent, exponentValue]
  have hsome (value : Int) (hvalue : integer? n.negative (digitsValue n.whole) = some value) :
      n.IsInteger value := ⟨hfraction, hexponent, hvalue⟩
  rw [toRat, hvalue] at hlow hhigh ⊢
  cases hnegative : n.negative with
  | false =>
    rw [hnegative, if_neg Bool.false_ne_true, one_mul] at hhigh
    rw [hnegative] at hsome
    have hnat : digitsValue n.whole < 2 ^ 64 := by exact_mod_cast hhigh
    exact .inl ⟨_, hsome _ (if_pos hnat)⟩
  | true =>
    rw [hnegative, if_pos rfl, neg_one_mul, neg_le_neg_iff] at hlow
    rw [hnegative] at hsome
    have hnat : digitsValue n.whole ≤ 2 ^ 63 := by exact_mod_cast hlow
    by_cases hzero : digitsValue n.whole = 0
    · right
      rw [hzero, Nat.cast_zero, mul_zero]
    · refine .inl ⟨-(digitsValue n.whole : Int), hsome _ ?_⟩
      rw [integer?, if_pos rfl, if_pos ⟨Nat.pos_of_ne_zero hzero, hnat⟩]

theorem IsExact.not_isVanishing {n : Numeral} (h : n.IsExact) : ¬ n.IsVanishing := by
  rintro ⟨e, he, -⟩
  rw [h.2.1] at he
  cases he

/-- A numeral is taken as a number at some place. -/
def IsTakenAs (n : Numeral) (m : Number) : Prop :=
  ∃ c after, numberOf n.negative n.whole n.fraction n.exponent c = .ok (m, after)

/-- The three ways to read a numeral. -/
theorem IsTakenAs.cases {n : Numeral} {m : Number} (h : n.IsTakenAs m) :
    (∃ value, n.IsInteger value ∧ m = .integer value) ∨
    (n.IsVanishing ∧ m = .double ⟨n.negative, 0⟩) ∨
    ∃ x, ¬ n.IsVanishing ∧ (∀ value, ¬ n.IsInteger value) ∧ m = .double x ∧
      Double.ofDecimal? n.negative n.magnitude.digits n.magnitude.power = some x := by
  obtain ⟨c, after, h⟩ := h
  by_cases hvanishing : n.IsVanishing
  · obtain ⟨e, he, hbound⟩ := hvanishing
    obtain ⟨k, hk⟩ := Option.ne_none_iff_exists'.mp (exceedingDigits?_ne_none hbound)
    rw [Option.mem_def.mp he] at h
    simp only [numberOf, hk] at h
    split_ifs at h
    · cases h
      exact .inr (.inl ⟨⟨e, he, hbound⟩, rfl⟩)
    · simp [fault] at h
  · have hfits : ExponentFits n.exponent := by
      intro e he
      by_contra hbound
      exact hvanishing ⟨e, he, not_le.mp hbound⟩
    rcases numberOf_numeral n hfits with ⟨value, hvalue, hread⟩ | hread
    · rw [hread] at h
      cases h
      exact .inl ⟨value, hvalue, rfl⟩
    · rw [hread] at h
      obtain ⟨x, hx, rfl⟩ := roundedAt_eq_ok h
      refine .inr (.inr ⟨x, hvanishing, fun value hvalue => ?_, rfl, hx⟩)
      have hinteger := hvalue.readsAs c
      rw [hread, h] at hinteger
      cases hinteger

section Texts

variable {n : Numeral} {m : Number} (h : n.IsTakenAs m)

include h

theorem IsTakenAs.text_of_isVanishing (hvanishing : n.IsVanishing) : m.text = signedDecimal 0 := by
  rcases h.cases with ⟨value, hvalue, -⟩ | ⟨-, rfl⟩ | ⟨x, hnot, -⟩
  · exact absurd hvanishing hvalue.isExact.not_isVanishing
  · rfl
  · exact absurd hvanishing hnot

/-- An exact numeral is written as the integer that it is. -/
theorem IsTakenAs.text_of_isExact (hexact : n.IsExact) :
    ∃ k : Int, Fits k ∧ n.toRat = k ∧ m.text = signedDecimal k := by
  rcases h.cases with ⟨value, hvalue, rfl⟩ | ⟨hvanishing, -⟩ | ⟨x, -, hnot, rfl, hx⟩
  · exact ⟨value, (of_integer?_eq_some hvalue.2.2).1, hvalue.cast_eq.symm, rfl⟩
  · exact absurd hvanishing hexact.not_isVanishing
  · rcases hexact.cases with ⟨value, hvalue⟩ | hzero
    · exact absurd hvalue (hnot value)
    · have hunits : x.units = 0 := by
        rw [units_eq_zero_iff hx, hzero]
        exact Double.isNegligible_zero
      refine ⟨0, ⟨by decide, by decide⟩, by rw [hzero, Int.cast_zero], ?_⟩
      rw [Number.text, Double.text, if_pos hunits]
      rfl

/-- A numeral that is rounded is written as its double. -/
theorem IsTakenAs.exists_double (hvanishing : ¬ n.IsVanishing) (hexact : ¬ n.IsExact) :
    ∃ x, m = .double x ∧ x.Valid ∧
      Double.ofDecimal? n.negative n.magnitude.digits n.magnitude.power = some x := by
  rcases h.cases with ⟨value, hvalue, -⟩ | ⟨hyes, -⟩ | ⟨x, -, -, hm, hx⟩
  · exact absurd hvalue.isExact hexact
  · exact absurd hyes hvanishing
  · exact ⟨x, hm, Double.valid_of_ofDecimal? hx, hx⟩

end Texts

theorem IsSpelling.isTakenAs_of_scanNumber {n : Numeral} {text rest : Text} {offset : Nat}
    {m : Number} {after : Cursor} (htext : n.IsSpelling text) (hrest : EndsNumeral rest)
    (h : scanNumber ⟨text ++ rest, offset⟩ = .ok (m, after)) : n.IsTakenAs m := by
  rw [scanNumber_of_isSpelling htext hrest] at h
  exact ⟨_, _, h⟩

end Numeral

/-- A text is read as a number somewhere in a document. -/
def IsReadAs (text : Text) (m : Number) : Prop :=
  ∃ room rest offset after, EndsNumeral rest ∧
    readValue room ⟨text ++ rest, offset⟩ = .ok (.number m, after)

theorem Numeral.IsSpelling.isTakenAs {n : Numeral} {text : Text} {m : Number}
    (htext : n.IsSpelling text) (h : IsReadAs text m) : n.IsTakenAs m := by
  obtain ⟨room, rest, offset, after, hrest, hread⟩ := h
  obtain ⟨c, more, rfl, hc⟩ := htext.exists_eq_cons
  rw [List.cons_append, readValue_number room _ offset hc] at hread
  obtain ⟨⟨value, next⟩, hscan, hvalue⟩ := bind_eq_ok_iff.mp hread
  cases hvalue
  exact htext.isTakenAs_of_scanNumber hrest hscan

theorem Numeral.IsSpelling.isReadAs {n : Numeral} {text : Text} {m : Number}
    (htext : n.IsSpelling text) (h : n.ReadsAs m) : IsReadAs text m := by
  have hscan := scanNumber_of_isSpelling htext endsNumeral_nil 0
  rw [h] at hscan
  obtain ⟨c, more, rfl, hc⟩ := htext.exists_eq_cons
  refine ⟨0, [], 0, ⟨[], 0 + (c :: more).length⟩, endsNumeral_nil, ?_⟩
  rw [List.cons_append, readValue_number 0 _ 0 hc, ← List.cons_append, hscan]
  rfl

end Json

/-! ### Doubles that are written like integers -/

/-- A decimal without zeros at its end that is an integer has no places. -/
theorem Decimal.power_nonneg {d : Decimal} {k : Nat} (hd : d.digits % 10 ≠ 0)
    (h : d.toRat = k) : 0 ≤ d.power := by
  by_contra hpower
  have hdigits : (d.digits : ℚ) = k * 10 ^ (-d.power).toNat := by
    rw [← h, toRat, mul_assoc, mul_comm ((10 : ℚ) ^ d.power), Double.ten_pow_mul_zpow hpower,
      mul_one]
  have hnat : d.digits = k * 10 ^ (-d.power).toNat := by exact_mod_cast hdigits
  obtain ⟨j, hj⟩ : ∃ j, (-d.power).toNat = j + 1 := Nat.exists_eq_succ_of_ne_zero (by omega)
  rw [hj, Nat.pow_succ, ← Nat.mul_assoc] at hnat
  omega

namespace Double

/-- What is rounded from an integer of 64 bits is between the bounds of positional notation. -/
theorem isPositional_of_rounds {x : Double} (hx : x.Valid) (hpos : 0 < x.units) {k : Nat}
    (hk : k ≠ 0) (hbits : k < 2 ^ 64) (h : Rounds x.units (k * one)) : x.IsPositional := by
  have hhalf := h.half_le hx.representable hpos
  have hdouble := h.le_double hx.representable hpos
  -- The double is off by less than a factor of two, and both bounds are further away than that.
  constructor
  · have hone : (one : ℚ) ≤ k * one :=
      le_mul_of_one_le_left one_cast_pos.le (by exact_mod_cast Nat.one_le_iff_ne_zero.mpr hk)
    have hunits : one ≤ 2 * x.units := by exact_mod_cast hone.trans hdouble
    have hlow : 2 * positionalBounds.1 ≤ one := by decide +kernel
    exact Nat.le_of_mul_le_mul_left (hlow.trans hunits) two_pos
  · have hbits' : (k : ℚ) < 2 ^ 64 := by exact_mod_cast hbits
    have hless := mul_lt_mul_of_pos_right hbits' one_cast_pos
    have hhigh : (x.units : ℚ) < 10 ^ 21 * one := by
      have hone := one_cast_pos
      linarith
    rw [← positionalBounds_cast, Nat.cast_lt] at hhigh
    exact hhigh

section Integers

variable {x : Double} (hx : x.Valid) (hpos : 0 < x.units) {k : Int} (hfits : Json.Fits k)

include hx hpos hfits

/-- What is written as an integer is the shortest decimal. -/
theorem shortest_eq_of_text (h : x.text = signedDecimal k) :
    (shortest .up x.units).toRat = |(k : ℚ)| := by
  obtain ⟨n, -, hspelling, hvalue, -⟩ := exists_numeral_shortest hx hpos
  have hscan := Json.scanNumber_signedDecimal hfits Json.endsNumeral_nil 0
  rw [← h, ← hspelling] at hscan
  have htaken := n.isSpelling_spelling.isTakenAs_of_scanNumber Json.endsNumeral_nil hscan
  rcases htaken.cases with ⟨value, hinteger, ⟨⟩⟩ | ⟨-, ⟨⟩⟩ | ⟨_, -, -, ⟨⟩, -⟩
  rw [← hvalue, hinteger.toRat_magnitude, Nat.cast_natAbs, Int.cast_abs]

/-- A shortest decimal that is an integer of 64 bits is written without a point and an exponent. -/
theorem text_eq_of_shortest (hk : k ≠ 0) (hsign : x.negative = decide (k < 0))
    (h : (shortest .up x.units).toRat = |(k : ℚ)|) : x.text = signedDecimal k := by
  have habs : |(k : ℚ)| = k.natAbs := by rw [Nat.cast_natAbs, Int.cast_abs]
  rw [habs] at h
  have hpower := Decimal.power_nonneg (shortest_digits_mod_ten hx.representable hpos .up) h
  have hdigits : (shortest .up x.units).digits * 10 ^ (shortest .up x.units).power.toNat =
      k.natAbs := by
    rw [Decimal.toRat, ten_zpow_of_nonneg hpower] at h
    exact_mod_cast h
  have hpositional : x.IsPositional := by
    have hrounds := rounds_shortest .up hx.representable hpos
    rw [h] at hrounds
    have hbits : k.natAbs < 2 ^ 64 := by
      obtain ⟨hlow, hhigh⟩ := hfits
      omega
    exact isPositional_of_rounds hx hpos (Int.natAbs_ne_zero.mpr hk) hbits hrounds
  have hzero : (shortest .up x.units).digits ≠ 0 :=
    digits_ne_zero_of_rounds hx.representable hpos (rounds_shortest .up hx.representable hpos)
  rw [text_of_isPositional hpos.ne' hpositional, signed_eq, Decimal.positional, if_pos hpower,
    List.append_nil, Decimal.figures, ← Json.decimal_mul_ten_pow hzero, hdigits, hsign,
    ← Json.spelling_integerNumeral]
  simp [Json.Numeral.spelling, Json.integerNumeral, Json.fractionText, Json.exponentText]

end Integers

/-- Only zeros are written as zero. -/
theorem text_eq_zero_iff {x : Double} (hx : x.Valid) : x.text = signedDecimal 0 ↔ x.units = 0 := by
  constructor
  · intro h
    by_contra hunits
    have hpos := Nat.pos_of_ne_zero hunits
    have hrounds := rounds_shortest .up hx.representable hpos
    rw [shortest_eq_of_text hx hpos ⟨by decide, by decide⟩ h, Int.cast_zero, abs_zero, zero_mul]
      at hrounds
    exact lt_irrefl _ (hrounds.pos hx.representable hpos)
  · intro h
    rw [text, if_pos h]
    rfl

end Double

/-! ### Spellings of one number -/

namespace Json

theorem signedDecimal_inj {k l : Int} (hk : Fits k) (hl : Fits l)
    (h : signedDecimal k = signedDecimal l) : k = l := by
  have hscan := scanNumber_signedDecimal hk endsNumeral_nil 0
  rw [h, scanNumber_signedDecimal hl endsNumeral_nil 0] at hscan
  cases hscan
  rfl

namespace Numeral.IsTakenAs

/-- A numeral that does not vanish is written as zero exactly up to half a unit. -/
theorem text_eq_zero_iff {n : Numeral} {m : Number} (h : n.IsTakenAs m)
    (hvanishing : ¬ n.IsVanishing) :
    m.text = signedDecimal 0 ↔ Double.IsNegligible n.toRat := by
  by_cases hexact : n.IsExact
  · obtain ⟨k, hfits, hk, htext⟩ := h.text_of_isExact hexact
    rw [hk, Double.isNegligible_intCast_iff, htext]
    exact ⟨signedDecimal_inj hfits ⟨by decide, by decide⟩, fun hzero => by rw [hzero]⟩
  · obtain ⟨x, rfl, hvalid, hx⟩ := h.exists_double hvanishing hexact
    rw [Number.text, Double.text_eq_zero_iff hvalid, units_eq_zero_iff hx]

section Values

variable {a b : Numeral} {m n : Number} (ha : a.IsTakenAs m) (hb : b.IsTakenAs n)
  (hvalue : a.toRat = b.toRat) (hvanishing : ¬ b.IsVanishing)

include ha hb hvalue hvanishing

/-- Numerals of one number have the same text if both are exact, or both are rounded. -/
theorem text_congr (hother : ¬ a.IsVanishing) (hexact : a.IsExact ↔ b.IsExact) :
    m.text = n.text := by
  by_cases hzero : Double.IsNegligible a.toRat
  · rw [(ha.text_eq_zero_iff hother).mpr hzero]
    rw [hvalue] at hzero
    rw [(hb.text_eq_zero_iff hvanishing).mpr hzero]
  by_cases hyes : a.IsExact
  · obtain ⟨k, -, hk, htext⟩ := ha.text_of_isExact hyes
    obtain ⟨l, -, hl, htext'⟩ := hb.text_of_isExact (hexact.mp hyes)
    have hsame : k = l := by exact_mod_cast hk.symm.trans (hvalue.trans hl)
    rw [htext, htext', hsame]
  · obtain ⟨x, rfl, -, hx⟩ := ha.exists_double hother hyes
    obtain ⟨y, rfl, -, hy⟩ := hb.exists_double hvanishing (mt hexact.mpr hyes)
    -- The numerals of zero can have different signs, but those of other numbers cannot.
    have hne : a.toRat ≠ 0 := by
      intro h
      rw [h] at hzero
      exact hzero Double.isNegligible_zero
    have hmagnitude : a.magnitude.toRat = b.magnitude.toRat := by
      rw [← abs_toRat, ← abs_toRat, hvalue]
    rw [negative_eq hne, hvalue, ← negative_eq (hvalue ▸ hne),
      Double.ofDecimal?_congr hmagnitude, hy] at hx
    cases hx
    rfl

/-- An exact numeral and a rounded one of one number have the same text exactly if the number is
zero or the shortest decimal of its double. -/
theorem text_eq_iff_isFaithful (hexact : a.IsExact) (hrounded : ¬ b.IsExact) :
    m.text = n.text ↔ Double.IsNegligible a.toRat ∨ Double.IsFaithful a.toRat := by
  obtain ⟨k, hfits, hk, htext⟩ := ha.text_of_isExact hexact
  obtain ⟨x, rfl, hvalid, hx⟩ := hb.exists_double hvanishing hrounded
  have hmagnitude : b.magnitude.toRat = |(k : ℚ)| := by rw [← abs_toRat, ← hvalue, hk]
  have hunits : x.units = 0 ↔ k = 0 := by
    rw [units_eq_zero_iff hx, ← hvalue, hk, Double.isNegligible_intCast_iff]
  rw [hk, Double.isNegligible_intCast_iff, htext, Number.text]
  by_cases hzero : k = 0
  · refine iff_of_true ?_ (.inl hzero)
    rw [hzero, eq_comm, Double.text_eq_zero_iff hvalid, hunits, hzero]
  have hpos : 0 < x.units := Nat.pos_of_ne_zero (mt hunits.mp hzero)
  have hsign : x.negative = decide (k < 0) := by
    have hne : b.toRat ≠ 0 := by
      rw [← hvalue, hk]
      exact_mod_cast hzero
    rw [Double.negative_of_ofDecimal? hx, negative_eq hne, ← hvalue, hk]
    simp
  rw [or_iff_right hzero, eq_comm]
  constructor
  · intro h
    refine ⟨x, hvalid, hpos, ?_⟩
    rw [← Double.shortest_eq_of_text hvalid hpos hfits h]
    exact Double.isShortest_shortest hvalid.representable hpos
  · rintro ⟨y, hy, hypos, hshortest⟩
    have hrounds := hshortest.rounds
    rw [← hmagnitude] at hrounds
    have hsame := Double.ofDecimal?_eq_of_rounds hy.representable hypos hrounds hy.lt_limit
      b.negative
    rw [hx] at hsame
    obtain rfl := Option.some.inj hsame
    exact Double.text_eq_of_shortest hvalid hpos hfits hzero hsign
      ((Double.isShortest_shortest hvalid.representable hpos).unique hshortest)

end Values

section Agreement

variable {a b : Numeral} {m n : Number} (ha : a.IsTakenAs m) (hb : b.IsTakenAs n)
  (hvalue : a.toRat = b.toRat)

include ha hb hvalue

/-- A numeral that vanishes has the text of one that does not only up to half a unit. -/
theorem text_eq_iff_of_isVanishing (hyes : a.IsVanishing) (hno : ¬ b.IsVanishing) :
    m.text = n.text ↔ Double.IsNegligible a.toRat := by
  rw [ha.text_of_isVanishing hyes, eq_comm, hb.text_eq_zero_iff hno, hvalue]

/-- When the texts of two numerals of one number agree. -/
theorem text_eq_iff :
    m.text = n.text ↔ Double.IsNegligible a.toRat ∨
      (a.IsVanishing ↔ b.IsVanishing) ∧
        ((a.IsExact ↔ b.IsExact) ∨ Double.IsFaithful a.toRat) := by
  by_cases hboth : a.IsVanishing ↔ b.IsVanishing
  · rw [and_iff_right hboth]
    by_cases hsame : a.IsExact ↔ b.IsExact
    · refine iff_of_true ?_ (.inr (.inl hsame))
      by_cases hyes : a.IsVanishing
      · rw [ha.text_of_isVanishing hyes, hb.text_of_isVanishing (hboth.mp hyes)]
      · exact ha.text_congr hb hvalue (mt hboth.mpr hyes) hyes hsame
    · rw [or_iff_right hsame]
      rcases (xor_iff_not_iff _ _).mpr hsame with ⟨hexact, hrounded⟩ | ⟨hexact, hrounded⟩
      · exact ha.text_eq_iff_isFaithful hb hvalue (mt hboth.mpr hexact.not_isVanishing) hexact
          hrounded
      · rw [eq_comm, hvalue]
        exact hb.text_eq_iff_isFaithful ha hvalue.symm (mt hboth.mp hexact.not_isVanishing) hexact
          hrounded
  · rw [or_iff_left (fun h => hboth h.1)]
    rcases (xor_iff_not_iff _ _).mpr hboth with ⟨hyes, hno⟩ | ⟨hyes, hno⟩
    · exact ha.text_eq_iff_of_isVanishing hb hvalue hyes hno
    · rw [eq_comm, hvalue]
      exact hb.text_eq_iff_of_isVanishing ha hvalue.symm hyes hno

/-- Below 2⁵³ exact and rounded numerals have the same text. -/
theorem text_eq_of_small (hsmall : |a.toRat| < 2 ^ 53)
    (hboth : a.IsVanishing ↔ b.IsVanishing) : m.text = n.text := by
  rw [ha.text_eq_iff hb hvalue]
  by_cases hsame : a.IsExact ↔ b.IsExact
  · exact .inr ⟨hboth, .inl hsame⟩
  obtain ⟨k, hk⟩ : ∃ k : Int, a.toRat = k := by
    rcases (xor_iff_not_iff _ _).mpr hsame with ⟨hexact, -⟩ | ⟨hexact, -⟩
    · obtain ⟨k, -, hk, -⟩ := ha.text_of_isExact hexact
      exact ⟨k, hk⟩
    · obtain ⟨k, -, hk, -⟩ := hb.text_of_isExact hexact
      exact ⟨k, hvalue.trans hk⟩
  rw [hk] at hsmall ⊢
  by_cases hzero : k = 0
  · exact .inl (Double.isNegligible_intCast_iff.mpr hzero)
  · exact .inr ⟨hboth, .inr (Double.isFaithful_of_small hzero hsmall)⟩

end Agreement

end Numeral.IsTakenAs

/-- Two spellings of one number have the same text exactly if the number is at most half of the
smallest positive double, or if both or none of them have an exponent beyond the bound and
either both or none are integers of 64 bits without a point and an exponent, or the number is the
shortest decimal of a double. In particular, below 2⁵³ the text depends only on the number, except
for exponents beyond the bound. -/
theorem number_texts_agree_iff {a b : Numeral} {s t : Text} {m n : Number}
    (hs : a.IsSpelling s) (ht : b.IsSpelling t) (hvalue : a.toRat = b.toRat)
    (hm : IsReadAs s m) (hn : IsReadAs t n) :
    (m.text = n.text ↔ Double.IsNegligible a.toRat ∨
      (a.IsVanishing ↔ b.IsVanishing) ∧
        ((a.IsExact ↔ b.IsExact) ∨ Double.IsFaithful a.toRat)) ∧
    (|a.toRat| < 2 ^ 53 → (a.IsVanishing ↔ b.IsVanishing) → m.text = n.text) := by
  have ha := hs.isTakenAs hm
  have hb := ht.isTakenAs hn
  exact ⟨ha.text_eq_iff hb hvalue, ha.text_eq_of_small hb hvalue⟩

/-- The least positive integer that is no double. -/
def odd : Int := 9007199254740993

/-- The numeral of this integer with a place behind the point. -/
def oddDecimal : Numeral :=
  { integerNumeral odd with
    fraction := some ['0']
    isDigits_fraction := by
      rintro digits ⟨⟩
      exact isDigits_decimal 0 }

theorem magnitude_oddDecimal : oddDecimal.magnitude = ⟨90071992547409930, -1⟩ := by
  have hdigits : digitsValue (decimal odd.natAbs ++ ['0']) = 90071992547409930 := by
    rw [digitsValue_concat, digitsValue_decimal]
    rfl
  simp [Numeral.magnitude, Numeral.places, oddDecimal, integerNumeral, exponentValue, hdigits]

theorem number_texts_agree_iff_odd :
    (integerNumeral odd).IsSpelling (signedDecimal odd) ∧
    oddDecimal.IsSpelling (signedDecimal odd ++ ['.', '0']) ∧
    (integerNumeral odd).toRat = oddDecimal.toRat ∧
    IsReadAs (signedDecimal odd) (.integer odd) ∧
    IsReadAs (signedDecimal odd ++ ['.', '0']) (.double ⟨false, 2 ^ 53 * Double.one⟩) ∧
    ((Number.integer odd).text = (Number.double ⟨false, 2 ^ 53 * Double.one⟩).text ↔
      Double.IsNegligible (integerNumeral odd).toRat ∨
      ((integerNumeral odd).IsVanishing ↔ oddDecimal.IsVanishing) ∧
        (((integerNumeral odd).IsExact ↔ oddDecimal.IsExact) ∨
          Double.IsFaithful (integerNumeral odd).toRat)) ∧
    (Number.integer odd).text = "9007199254740993" ∧
    (Number.double ⟨false, 2 ^ 53 * Double.one⟩).text = "9007199254740992" ∧
    ¬ Double.IsFaithful (integerNumeral odd).toRat := by
  have hs : (integerNumeral odd).IsSpelling (signedDecimal odd) := by
    rw [← spelling_integerNumeral]
    exact Numeral.isSpelling_spelling _
  have ht : oddDecimal.IsSpelling (signedDecimal odd ++ ['.', '0']) := ⟨[], .none, by decide⟩
  have hvalue : (integerNumeral odd).toRat = oddDecimal.toRat := by
    have hinteger : (integerNumeral odd).IsInteger odd := ⟨rfl, rfl, by decide +kernel⟩
    rw [Numeral.toRat, ← hinteger.cast_eq, Numeral.toRat, magnitude_oddDecimal, Decimal.toRat]
    norm_num [odd, oddDecimal, integerNumeral]
  have hm : IsReadAs (signedDecimal odd) (.integer odd) :=
    hs.isReadAs (numberOf_integerNumeral ⟨by decide, by decide⟩)
  have hn : IsReadAs (signedDecimal odd ++ ['.', '0']) (.double ⟨false, 2 ^ 53 * Double.one⟩) := by
    refine ht.isReadAs fun c => ?_
    have hx : Double.ofDecimal? false 90071992547409930 (-1) =
        some ⟨false, 2 ^ 53 * Double.one⟩ := by
      decide +kernel
    rcases numberOf_numeral oddDecimal (by rintro e ⟨⟩) with ⟨value, ⟨⟨⟩, -⟩, -⟩ | hread
    have hnegative : oddDecimal.negative = false := rfl
    rw [hread c, magnitude_oddDecimal, hnegative, roundedAt, hx]
  have hexact : (Number.integer odd).text = "9007199254740993" := by decide +kernel
  have hrounded : (Number.double ⟨false, 2 ^ 53 * Double.one⟩).text = "9007199254740992" := by
    decide +kernel
  have hagree := (number_texts_agree_iff hs ht hvalue hm hn).1
  refine ⟨hs, ht, hvalue, hm, hn, hagree, hexact, hrounded, fun hfaithful => ?_⟩
  have hboth : (integerNumeral odd).IsVanishing ↔ oddDecimal.IsVanishing := by
    simp [Numeral.IsVanishing, integerNumeral, oddDecimal]
  rw [hexact, hrounded] at hagree
  exact absurd (hagree.mpr (.inr ⟨hboth, .inr hfaithful⟩)) (by decide)

end Json

end Phrasebook
