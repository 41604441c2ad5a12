import Phrasebook.Number.Basic
import Phrasebook.Proofs.Json.Printing
import Phrasebook.Proofs.Number.Nearest
import Phrasebook.Proofs.Number.Shortest

/-!
# Numerals of decimals

The positional notation of a decimal and the one with an exponent are numerals of JSON, and the
digits, the place of the point and the exponent make up the decimal again. So if the decimal is
rounded to a double, the numeral is read as that double, or as an integer of 64 bits.
-/

namespace Phrasebook.Json

open Double

/-! ### Digits -/

theorem digitsValue_concat (digits : Text) (c : Char) :
    digitsValue (digits ++ [c]) = 10 * digitsValue digits + (c.toNat - '0'.toNat) := by
  rw [digitsValue, List.foldl_append]
  rfl

/-- Zeros in front do not count. -/
theorem digitsValue_zeros_append (n : Nat) (digits : Text) :
    digitsValue (Decimal.zeros n ++ digits) = digitsValue digits := by
  induction n with
  | zero => rfl
  | succ n ih =>
    rw [← ih]
    rfl

/-- The first digits of a number make no greater one. -/
theorem digitsValue_take_le (digits : Text) (n : Nat) :
    digitsValue (digits.take n) ≤ digitsValue digits := by
  have hgrow (rest : Text) (value : Nat) :
      value ≤ rest.foldl (fun n c => 10 * n + (c.toNat - '0'.toNat)) value := by
    induction rest generalizing value with
    | nil => exact le_rfl
    | cons c rest ih =>
      have hstep : value ≤ 10 * value + (c.toNat - '0'.toNat) := by omega
      exact hstep.trans (ih _)
  have hsplit : digitsValue digits = digitsValue (digits.take n ++ digits.drop n) := by
    rw [List.take_append_drop]
  rw [hsplit, digitsValue, digitsValue, List.foldl_append]
  exact hgrow _ _

/-- Digits that do not start with a needless zero are the numeral of their number. -/
theorem decimal_digitsValue {digits : Text} (h : IsWhole digits) :
    Text.decimal (digitsValue digits) = digits := by
  -- Numerals are made from the last digit on.
  induction digits using List.reverseRecOn with
  | nil => exact absurd rfl h.ne_nil
  | append_singleton front c ih =>
    obtain ⟨hlt, hchar⟩ := Text.digitChar_of_isDigit (h.digits c (by simp))
    rw [digitsValue_concat]
    by_cases hfront : front = []
    · subst hfront
      have hvalue : 10 * digitsValue [] + (c.toNat - '0'.toNat) = c.toNat - '0'.toNat :=
        Nat.zero_add _
      rw [hvalue, Text.decimal, Nat.toDigits_of_lt_base hlt, hchar]
      rfl
    · have hhead : front.head? ≠ some '0' := by
        intro hzero
        have hsingle := h.zero (by rw [List.head?_append_of_ne_nil _ hfront, hzero])
        rw [List.append_eq_singleton_iff] at hsingle
        rcases hsingle with ⟨hnil, -⟩ | ⟨-, hnil⟩
        · exact hfront hnil
        · cases hnil
      have hwhole : IsWhole front :=
        { digits := fun d hd => h.digits d (by simp [hd]), ne_nil := hfront
          zero := fun hzero => absurd hzero hhead }
      have hvalue := ih hwhole
      have hpos : digitsValue front ≠ 0 := by
        intro hzero
        rw [hzero] at hvalue
        rw [← hvalue] at hhead
        exact hhead rfl
      rw [Text.decimal] at hvalue ⊢
      rw [Nat.toDigits_of_base_le (by decide) (by omega)]
      rw [show (10 * digitsValue front + (c.toNat - '0'.toNat)) / 10 = digitsValue front by omega,
        show (10 * digitsValue front + (c.toNat - '0'.toNat)) % 10 = c.toNat - '0'.toNat by omega,
        hvalue, hchar]

theorem decimal_mul_ten_pow {n : Nat} (h : n ≠ 0) (k : Nat) :
    Text.decimal (n * 10 ^ k) = Text.decimal n ++ Decimal.zeros k := by
  induction k with
  | zero => simp [Decimal.zeros]
  | succ k ih =>
    have hpos : 0 < n * 10 ^ k := Nat.mul_pos (Nat.pos_of_ne_zero h) (Nat.pow_pos (by decide))
    rw [Nat.pow_succ, ← Nat.mul_assoc, Text.decimal, Nat.toDigits_of_base_le (by decide) (by omega),
      Nat.mul_div_cancel _ (by decide), Nat.mul_mod_left]
    rw [Text.decimal] at ih
    rw [ih, List.append_assoc, Decimal.zeros, Decimal.zeros, List.replicate_succ']
    rfl

/-! ### The value of a numeral -/

/-- The number that an exponent stands for; no exponent is zero. -/
def exponentValue : Option Exponent → Int
  | none => 0
  | some e => if e.negative then -digitsValue e.digits else digitsValue e.digits

/-- An exponent can be taken as it stands. -/
def ExponentFits (exponent : Option Exponent) : Prop :=
  ∀ e ∈ exponent, digitsValue e.digits ≤ exponentBound

theorem exceedingDigits?_eq_none {digits : Text} (h : digitsValue digits ≤ exponentBound) :
    exceedingDigits? digits = none := by
  rw [exceedingDigits?, List.find?_eq_none]
  intro n _
  have htake := digitsValue_take_le digits n
  simp only [decide_eq_true_eq, not_lt]
  omega

namespace Numeral

/-- The digits behind the point. -/
def places (n : Numeral) : Text := n.fraction.getD []

/-- The decimal that is spelled by a numeral, without the sign. -/
def magnitude (n : Numeral) : Decimal :=
  ⟨digitsValue (n.whole ++ n.places), exponentValue n.exponent - n.places.length⟩

/-- A numeral is read as a number, wherever it stands. -/
def ReadsAs (n : Numeral) (m : Number) : Prop :=
  ∀ c, numberOf n.negative n.whole n.fraction n.exponent c = .ok (m, c)

/-- A numeral is an integer of 64 bits, spelled without a point and an exponent. -/
def IsInteger (n : Numeral) (value : Int) : Prop :=
  n.fraction = none ∧ n.exponent = none ∧ integer? n.negative (digitsValue n.whole) = some value

theorem IsInteger.readsAs {n : Numeral} {value : Int} (h : n.IsInteger value) :
    n.ReadsAs (.integer value) := by
  obtain ⟨hfraction, hexponent, hinteger⟩ := h
  intro c
  rw [hfraction, hexponent]
  simp [numberOf, hinteger]

end Numeral

/-- A numeral is read as an integer of 64 bits if it is one, and else rounded to a double. -/
theorem numberOf_numeral (n : Numeral) (hexponent : ExponentFits n.exponent) :
    (∃ value, n.IsInteger value ∧ n.ReadsAs (.integer value)) ∨
    ∀ c, numberOf n.negative n.whole n.fraction n.exponent c =
      roundedAt n.negative n.magnitude.digits n.magnitude.power c := by
  obtain ⟨negative, whole, fraction, exponent, hwhole, hfraction, hdigits⟩ := n
  cases exponent with
  | some e =>
    have hexceeding := exceedingDigits?_eq_none (hexponent e rfl)
    right
    intro c
    simp only [numberOf, hexceeding, Numeral.magnitude, Numeral.places, exponentValue]
  | none =>
    cases fraction with
    | some digits =>
      right
      intro c
      simp [numberOf, Numeral.magnitude, Numeral.places, exponentValue]
    | none =>
      cases hinteger : integer? negative (digitsValue whole) with
      | some value =>
        have hvalue : Numeral.IsInteger ⟨negative, whole, none, none, hwhole, hfraction, hdigits⟩
            value := ⟨rfl, rfl, hinteger⟩
        exact .inl ⟨value, hvalue, hvalue.readsAs⟩
      | none =>
        right
        intro c
        simp [numberOf, hinteger, Numeral.magnitude, Numeral.places, exponentValue]

/-- A numeral that is rounded to a double is read as the double, or as an integer. -/
theorem exists_readsAs {n : Numeral} (hexponent : ExponentFits n.exponent) {x : Double}
    (hx : x.Valid) (hpos : 0 < x.units) (hsign : n.negative = x.negative)
    (h : Rounds x.units (n.magnitude.toRat * one)) :
    ∃ m, n.ReadsAs m ∧ (m = .double x ∨ ∃ value, m = .integer value ∧ n.IsInteger value) := by
  rcases numberOf_numeral n hexponent with ⟨value, hvalue, hread⟩ | hread
  · exact ⟨.integer value, hread, .inr ⟨value, rfl, hvalue⟩⟩
  · refine ⟨.double x, fun c => ?_, .inl rfl⟩
    rw [hread, roundedAt,
      ofDecimal?_eq_of_rounds hx.representable hpos h hx.lt_limit n.negative, hsign]

theorem of_integer?_eq_some {negative : Bool} {magnitude : Nat} {value : Int}
    (h : integer? negative magnitude = some value) :
    Fits value ∧ value.natAbs = magnitude ∧ decide (value < 0) = negative := by
  have hlow : Nat.pow 2 63 = 9223372036854775808 := rfl
  have hhigh : Nat.pow 2 64 = 18446744073709551616 := rfl
  rw [integer?] at h
  split_ifs at h with hnegative hmagnitude hmagnitude
  · cases h
    rw [hnegative, Fits, decide_eq_true_eq]
    omega
  · cases h
    rw [Bool.not_eq_true] at hnegative
    rw [hnegative, Fits, decide_eq_false_iff_not]
    omega

namespace Numeral.IsInteger

variable {n : Numeral} {value : Int} (h : n.IsInteger value)

include h

theorem spelling_eq : n.spelling = Text.signedDecimal value := by
  obtain ⟨hfraction, hexponent, hinteger⟩ := h
  obtain ⟨-, hmagnitude, hsign⟩ := of_integer?_eq_some hinteger
  rw [← spelling_integerNumeral, Numeral.spelling, Numeral.spelling, hfraction, hexponent,
    ← decimal_digitsValue n.isWhole, ← hmagnitude, ← hsign]
  rfl

theorem toRat_magnitude : n.magnitude.toRat = value.natAbs := by
  obtain ⟨hfraction, hexponent, hinteger⟩ := h
  obtain ⟨-, hmagnitude, -⟩ := of_integer?_eq_some hinteger
  rw [hmagnitude, Decimal.toRat, magnitude, places, hfraction, hexponent, exponentValue]
  simp

theorem cast_eq : (value : ℚ) = (if n.negative then -1 else 1) * n.magnitude.toRat := by
  obtain ⟨-, -, hsign⟩ := of_integer?_eq_some h.2.2
  rw [h.toRat_magnitude, ← hsign, Nat.cast_natAbs]
  by_cases hvalue : value < 0
  · simp [hvalue, abs_of_neg hvalue]
  · simp [hvalue, abs_of_nonneg (not_lt.mp hvalue)]

end Numeral.IsInteger

/-! ### The notations of decimals -/

theorem isDigits_figures (d : Decimal) : IsDigits d.figures := isDigits_decimal d.digits

theorem isWhole_take_figures {d : Decimal} (hd : d.digits ≠ 0) {n : Nat} (hn : n ≠ 0) :
    IsWhole (d.figures.take n) where
  digits c hc := (isDigits_figures d).digits c (List.mem_of_mem_take hc)
  ne_nil := by
    rw [Ne, List.take_eq_nil_iff, not_or]
    exact ⟨hn, (isDigits_figures d).ne_nil⟩
  zero hzero := by
    rw [List.head?_take, if_neg hn] at hzero
    exact absurd hzero (head?_decimal_ne_zero hd)

theorem isDigits_drop_figures {d : Decimal} {n : Nat} (hn : n < d.figures.length) :
    IsDigits (d.figures.drop n) where
  digits c hc := (isDigits_figures d).digits c (List.mem_of_mem_drop hc)
  ne_nil := by
    rw [Ne, List.drop_eq_nil_iff]
    omega

theorem isDigits_zeros_append (n : Nat) {digits : Text} (h : IsDigits digits) :
    IsDigits (Decimal.zeros n ++ digits) where
  digits c hc := by
    rcases List.mem_append.mp hc with hzero | hdigit
    · rw [List.eq_of_mem_replicate hzero]
      rfl
    · exact h.digits c hdigit
  ne_nil := List.append_ne_nil_of_right_ne_nil _ h.ne_nil

/-- The positional notation of a decimal is a numeral without an exponent. -/
theorem exists_positional {d : Decimal} (hd : d.digits ≠ 0) (negative : Bool) :
    ∃ n : Numeral, n.negative = negative ∧
      n.spelling = (if negative then ['-'] else []) ++ d.positional [] ∧
      n.magnitude.toRat = d.toRat ∧ n.exponent = none := by
  have hfigures : digitsValue d.figures = d.digits := digitsValue_decimal d.digits
  have hlength : d.pointPlace = d.figures.length + d.power := rfl
  by_cases hpower : 0 ≤ d.power
  · have hzeros : Text.decimal (d.digits * 10 ^ d.power.toNat) =
        d.figures ++ Decimal.zeros d.power.toNat := decimal_mul_ten_pow hd _
    refine ⟨⟨negative, Text.decimal (d.digits * 10 ^ d.power.toNat), none, none,
      isWhole_decimal _, by simp, by simp⟩, rfl, ?_, ?_, rfl⟩
    · simp [Numeral.spelling, fractionText, exponentText, Decimal.positional, hpower, hzeros]
    · simp [Numeral.magnitude, Numeral.places, Decimal.toRat, exponentValue, digitsValue_decimal,
        ten_zpow_of_nonneg hpower]
  · by_cases hpoint : 0 < d.pointPlace
    · have hplace : d.pointPlace.toNat < d.figures.length := by omega
      refine ⟨⟨negative, d.figures.take d.pointPlace.toNat,
        some (d.figures.drop d.pointPlace.toNat), none, isWhole_take_figures hd (by omega), ?_,
        by simp⟩, rfl, ?_, ?_, rfl⟩
      · rintro digits ⟨⟩
        exact isDigits_drop_figures hplace
      · simp [Numeral.spelling, fractionText, exponentText, Decimal.positional, hpower, hpoint]
      · have hplaces : (0 : Int) - (d.figures.drop d.pointPlace.toNat).length = d.power := by
          rw [List.length_drop]
          omega
        simp only [Numeral.magnitude, Numeral.places, Option.getD_some, List.take_append_drop,
          exponentValue, hfigures, hplaces]
    · refine ⟨⟨negative, ['0'], some (Decimal.zeros (-d.pointPlace).toNat ++ d.figures),
        none, isWhole_decimal 0, ?_, by simp⟩, rfl, ?_, ?_, rfl⟩
      · rintro digits ⟨⟩
        exact isDigits_zeros_append _ (isDigits_figures d)
      · simp [Numeral.spelling, fractionText, exponentText, Decimal.positional, hpower, hpoint]
      · have hplaces : (0 : Int) - (Decimal.zeros (-d.pointPlace).toNat ++ d.figures).length =
            d.power := by
          rw [List.length_append, Decimal.zeros, List.length_replicate]
          omega
        have hdigits :
            digitsValue (['0'] ++ (Decimal.zeros (-d.pointPlace).toNat ++ d.figures)) =
              d.digits := by
          rw [show ['0'] = Decimal.zeros 1 from rfl, digitsValue_zeros_append,
            digitsValue_zeros_append, hfigures]
        simp only [Numeral.magnitude, Numeral.places, Option.getD_some, exponentValue, hdigits,
          hplaces]

/-- The notation of a decimal with one digit in front of the point is a numeral. -/
theorem exists_scientific {d : Decimal} (hd : d.digits ≠ 0) (negative : Bool) :
    ∃ n : Numeral, n.negative = negative ∧
      n.spelling = (if negative then ['-'] else []) ++ d.scientific ∧
      n.magnitude.toRat = d.toRat ∧
      ∃ e, n.exponent = some e ∧ digitsValue e.digits = (d.pointPlace - 1).natAbs := by
  have hfigures : digitsValue d.figures = d.digits := digitsValue_decimal d.digits
  have hlength : d.pointPlace = d.figures.length + d.power := rfl
  have hpos : 0 < d.figures.length := List.length_pos_of_ne_nil (isDigits_figures d).ne_nil
  have hfraction (digits : Text)
      (h : digits ∈ if (d.figures.drop 1).isEmpty then none else some (d.figures.drop 1)) :
      IsDigits digits := by
    by_cases hempty : (d.figures.drop 1).isEmpty
    · rw [if_pos hempty] at h
      cases h
    · rw [if_neg hempty] at h
      cases h
      rw [List.isEmpty_iff, List.drop_eq_nil_iff] at hempty
      exact isDigits_drop_figures (not_le.mp hempty)
  have hplaces : (if (d.figures.drop 1).isEmpty then none else some (d.figures.drop 1)).getD [] =
      d.figures.drop 1 := by
    split_ifs with hempty
    · exact (List.isEmpty_iff.mp hempty).symm
    · rfl
  refine ⟨⟨negative, d.figures.take 1,
    if (d.figures.drop 1).isEmpty then none else some (d.figures.drop 1),
    some ⟨decide (d.pointPlace - 1 < 0), Text.decimal (d.pointPlace - 1).natAbs⟩,
    isWhole_take_figures hd (by decide), hfraction, ?_⟩, rfl, ?_, ?_,
    ⟨_, rfl, digitsValue_decimal _⟩⟩
  · rintro e ⟨⟩
    exact isDigits_decimal _
  · rw [Numeral.spelling, List.append_assoc, List.append_assoc, Decimal.scientific]
    congr 1
    rw [List.append_assoc]
    congr 2
    · split_ifs <;> rfl
    · simp only [exponentText, decide_eq_true_eq]
      by_cases hsign : 0 ≤ d.pointPlace - 1
      · rw [if_pos hsign, if_neg (not_lt.mpr hsign)]
        congr 3
        omega
      · rw [if_neg hsign, if_pos (not_le.mp hsign)]
        congr 3
        omega
  · have hexponent : exponentValue (some ⟨decide (d.pointPlace - 1 < 0),
        Text.decimal (d.pointPlace - 1).natAbs⟩) = d.pointPlace - 1 := by
      simp only [exponentValue, digitsValue_decimal, decide_eq_true_eq]
      split_ifs <;> omega
    have hpower : d.pointPlace - 1 - (d.figures.drop 1).length = d.power := by
      rw [List.length_drop]
      omega
    simp only [Numeral.magnitude, Numeral.places, hplaces, List.take_append_drop, hfigures,
      hexponent, hpower]

end Phrasebook.Json
