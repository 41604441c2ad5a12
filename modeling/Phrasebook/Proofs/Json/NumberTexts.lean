import Phrasebook.Proofs.Json.DecimalNumerals
import Phrasebook.Proofs.Json.Objects

/-!
# Texts of numbers

The text of a number that was read is a numeral, and it is read back. An integer is read back as
itself. A double is read back as itself or as an integer to which it is the nearest double; in both
cases the text of what was read back is the same text.
-/

namespace Phrasebook

open Json

namespace Number

/-- The numbers that can be read: integers of at most 64 bits, and doubles. -/
def Valid : Number → Prop
  | integer value => Fits value
  | double x => x.Valid

/-- The rational number that a number is. -/
def toRat : Number → ℚ
  | integer value => value
  | double x => x.toRat

/-- What a number is read back as from its text. Integers come back. A double is nearest to what
comes back, both zeros become the integer zero, and the text stays. -/
structure RereadAs (n m : Number) : Prop where
  integer : ∀ value, n = .integer value → m = .integer value
  nearest : ∀ x, n = .double x → x.IsNearest m.toRat
  zero : ∀ x, n = .double x → x.units = 0 → m = .integer 0
  text : m.text = n.text

end Number

/-! ### Numbers that are read -/

theorem Double.valid_zero (negative : Bool) : Double.Valid ⟨negative, 0⟩ where
  representable := dvd_zero _
  lt_limit := by
    have hlimit : (0 : ℚ) < limit := by
      rw [limit_cast]
      positivity
    exact_mod_cast hlimit

theorem Double.valid_of_ofDecimal? {negative : Bool} {digits : Nat} {power : Int} {x : Double}
    (h : ofDecimal? negative digits power = some x) : x.Valid := by
  rw [ofDecimal?] at h
  dsimp only at h
  split_ifs at h with hzero hhigh hpower hlimit hlimit
  · cases h
    exact valid_zero negative
  · cases h
    exact ⟨representable_roundUnits _ _, hlimit⟩
  · cases h
    exact ⟨representable_roundUnits _ _, hlimit⟩

namespace Json

theorem roundedAt_eq_ok {negative : Bool} {digits : Nat} {power : Int} {c after : Cursor}
    {m : Number} (h : roundedAt negative digits power c = .ok (m, after)) :
    ∃ x, Double.ofDecimal? negative digits power = some x ∧ m = .double x := by
  rw [roundedAt] at h
  cases hx : Double.ofDecimal? negative digits power with
  | none => simp [hx, fault] at h
  | some x =>
    rw [hx] at h
    cases h
    exact ⟨x, rfl, rfl⟩

theorem valid_of_roundedAt {negative : Bool} {digits : Nat} {power : Int} {c after : Cursor}
    {n : Number} (h : roundedAt negative digits power c = .ok (n, after)) : n.Valid := by
  obtain ⟨x, hx, rfl⟩ := roundedAt_eq_ok h
  exact Double.valid_of_ofDecimal? hx

theorem valid_of_numberOf {negative : Bool} {whole : Text} {fraction : Option Text}
    {exponent : Option Exponent} {c after : Cursor} {n : Number}
    (h : numberOf negative whole fraction exponent c = .ok (n, after)) : n.Valid := by
  cases exponent with
  | some e =>
    simp only [numberOf] at h
    split at h
    · split_ifs at h
      · cases h
        exact Double.valid_zero negative
      · simp [fault] at h
    · exact valid_of_roundedAt h
  | none =>
    cases fraction with
    | some digits =>
      simp only [numberOf] at h
      exact valid_of_roundedAt h
    | none =>
      cases hinteger : integer? negative (digitsValue whole) with
      | none =>
        simp only [numberOf, Option.getD_none, List.append_nil, hinteger] at h
        exact valid_of_roundedAt h
      | some value =>
        simp only [numberOf, Option.getD_none, List.append_nil, hinteger] at h
        cases h
        exact (of_integer?_eq_some hinteger).1

/-- Numbers that are read are integers of at most 64 bits or doubles. -/
theorem valid_of_scanNumber {c after : Cursor} {n : Number} (h : scanNumber c = .ok (n, after)) :
    n.Valid := by
  obtain ⟨⟨whole, c⟩, -, h⟩ := bind_eq_ok_iff.mp h
  obtain ⟨⟨fraction, c⟩, -, h⟩ := bind_eq_ok_iff.mp h
  obtain ⟨⟨exponent, c⟩, -, h⟩ := bind_eq_ok_iff.mp h
  exact valid_of_numberOf h

/-! ### Reading numerals -/

namespace Numeral

theorem IsSpelling.exists_eq_cons {n : Numeral} {text : Text} (h : n.IsSpelling text) :
    ∃ c more, text = c :: more ∧ (c = '-' ∨ c.isDigit = true) := by
  obtain ⟨exponent, -, rfl⟩ := h
  cases n.negative with
  | true => exact ⟨'-', _, rfl, .inl rfl⟩
  | false =>
    obtain ⟨c, more, hmore⟩ := List.exists_cons_of_ne_nil n.isWhole.ne_nil
    rw [hmore]
    exact ⟨c, _, rfl, .inr (n.isWhole.digits c (by simp [hmore]))⟩

theorem exists_spelling_eq_cons (n : Numeral) :
    ∃ c more, n.spelling = c :: more ∧ (c = '-' ∨ c.isDigit = true) :=
  n.isSpelling_spelling.exists_eq_cons

theorem mem_fractionText {n : Numeral} {c : Char} (h : c ∈ fractionText n.fraction) :
    c.isDigit = true ∨ c = '.' := by
  cases hfraction : n.fraction with
  | none => simp [hfraction, fractionText] at h
  | some digits =>
    rw [hfraction, fractionText, List.mem_cons] at h
    rcases h with hpoint | hdigit
    · exact .inr hpoint
    · exact .inl ((n.isDigits_fraction digits hfraction).digits c hdigit)

theorem mem_exponentText {n : Numeral} {c : Char} (h : c ∈ exponentText n.exponent) :
    c.isDigit = true ∨ c = '-' ∨ c = '+' ∨ c = 'e' ∧ n.exponent ≠ none := by
  cases hexponent : n.exponent with
  | none => simp [hexponent, exponentText] at h
  | some e =>
    rw [hexponent, exponentText, List.mem_cons, List.mem_cons] at h
    rcases h with hletter | hsign | hdigit
    · exact .inr (.inr (.inr ⟨hletter, by simp⟩))
    · split_ifs at hsign
      · exact .inr (.inl hsign)
      · exact .inr (.inr (.inl hsign))
    · exact .inl ((n.isDigits_exponent e hexponent).digits c hdigit)

/-- A numeral is made of digits, signs, a point and the letter of the exponent. -/
theorem mem_spelling {n : Numeral} {c : Char} (h : c ∈ n.spelling) :
    c.isDigit = true ∨ c = '-' ∨ c = '.' ∨ c = '+' ∨ c = 'e' ∧ n.exponent ≠ none := by
  simp only [spelling, List.mem_append] at h
  rcases h with ((hsign | hwhole) | hfraction) | hexponent
  · have hminus : c = '-' := by
      split_ifs at hsign
      · exact List.mem_singleton.mp hsign
      · cases hsign
    exact .inr (.inl hminus)
  · exact .inl (n.isWhole.digits c hwhole)
  · rcases mem_fractionText hfraction with hdigit | hpoint
    · exact .inl hdigit
    · exact .inr (.inr (.inl hpoint))
  · rcases mem_exponentText hexponent with hdigit | hminus | hplus | hletter
    · exact .inl hdigit
    · exact .inr (.inl hminus)
    · exact .inr (.inr (.inr (.inl hplus)))
    · exact .inr (.inr (.inr (.inr hletter)))

/-- A numeral has the letter of an exponent exactly if it has an exponent. -/
theorem exponent_letter_iff (n : Numeral) :
    ('e' ∈ n.spelling ∨ 'E' ∈ n.spelling) ↔ n.exponent ≠ none := by
  constructor
  · rintro (h | h)
    · simpa using mem_spelling h
    · exact absurd (mem_spelling h) (by simp)
  · intro hexponent
    obtain ⟨e, he⟩ := Option.ne_none_iff_exists'.mp hexponent
    left
    simp [spelling, he, exponentText]

end Numeral

/-- A numeral is read as a JSON text. -/
theorem read_spelling {n : Numeral} {m : Number} (h : n.ReadsAs m) :
    read n.spelling = .ok (.number m) := by
  obtain ⟨c, more, hspelling, hc⟩ := n.exists_spelling_eq_cons
  have hscan := scanNumber_spelling n endsNumeral_nil 0
  rw [List.append_nil, h, hspelling] at hscan
  rw [hspelling, read, readValue_number depthLimit more 0 hc, hscan]
  rfl

end Json

/-! ### Texts of doubles -/

namespace Double

theorem isNearest_toRat {x : Double} (hx : x.Valid) : x.IsNearest x.toRat := by
  refine ⟨hx, fun y _ => ⟨?_, fun hdist => .inl ?_⟩⟩
  · rw [sub_self, abs_zero]
    exact abs_nonneg _
  · rw [sub_self, abs_zero, eq_comm, abs_eq_zero, sub_eq_zero] at hdist
    exact hdist.symm

theorem signed_eq (x : Double) (text : Text) :
    x.signed text = (if x.negative then ['-'] else []) ++ text := by
  rw [signed]
  split_ifs <;> rfl

/-- A double stands between the bounds of positional notation. -/
def IsPositional (x : Double) : Prop :=
  positionalBounds.1 ≤ x.units ∧ x.units < positionalBounds.2

section Text

variable {x : Double} (hzero : x.units ≠ 0)

include hzero

theorem text_of_isPositional (h : x.IsPositional) :
    x.text = x.signed ((shortest .up x.units).positional []) := by
  rw [text, if_neg hzero]
  rw [IsPositional] at h
  cases hbounds : positionalBounds with
  | mk low high =>
    rw [hbounds] at h
    simp only [if_pos h]

theorem text_of_not_isPositional (h : ¬ x.IsPositional) :
    x.text = x.signed (shortest .up x.units).scientific := by
  rw [text, if_neg hzero]
  rw [IsPositional] at h
  cases hbounds : positionalBounds with
  | mk low high =>
    rw [hbounds] at h
    simp only [if_neg h]

end Text

/-- The text of a double is the numeral of its shortest decimal. -/
theorem exists_numeral_shortest {x : Double} (hx : x.Valid) (hpos : 0 < x.units) :
    ∃ n : Numeral, n.negative = x.negative ∧ n.spelling = x.text ∧
      n.magnitude.toRat = (shortest .up x.units).toRat ∧ ExponentFits n.exponent ∧
      (n.exponent ≠ none ↔ ¬ x.IsPositional) := by
  have hrounds := rounds_shortest .up hx.representable hpos
  have hdigits := digits_ne_zero_of_rounds hx.representable hpos hrounds
  by_cases hbounds : x.IsPositional
  · obtain ⟨n, hsign, hspelling, hvalue, hexponent⟩ := exists_positional hdigits x.negative
    refine ⟨n, hsign, ?_, hvalue, ?_, by simp [hexponent, hbounds]⟩
    · rw [hspelling, ← signed_eq, text_of_isPositional hpos.ne' hbounds]
    · rw [hexponent]
      rintro e ⟨⟩
  · obtain ⟨n, hsign, hspelling, hvalue, e, hexponent, he⟩ :=
      exists_scientific hdigits x.negative
    refine ⟨n, hsign, ?_, hvalue, ?_, by simp [hexponent, hbounds]⟩
    · rw [hspelling, ← signed_eq, text_of_not_isPositional hpos.ne' hbounds]
    · rw [hexponent]
      rintro e ⟨⟩
      have hlow := neg_orderBound_le_of_rounds hx.representable hpos hrounds
      have hhigh := le_orderBound_of_rounds hx.representable hpos hrounds hx.lt_limit
      rw [he, exponentBound, Decimal.pointPlace, Decimal.figures, Text.decimal]
      rw [orderBound] at hlow hhigh
      omega

end Double

namespace Number

/-- If the text of a positive double is a numeral for a decimal in its interval, it is read back. -/
theorem exists_rereadAs {x : Double} (hx : x.Valid) (hpos : 0 < x.units) {numeral : Numeral}
    (hsign : numeral.negative = x.negative) (hspelling : numeral.spelling = x.text)
    (hexponent : ExponentFits numeral.exponent)
    (hrounds : Double.Rounds x.units (numeral.magnitude.toRat * Double.one)) :
    ∃ m, numeral.ReadsAs m ∧ (double x).RereadAs m := by
  obtain ⟨m, hread, hm⟩ := exists_readsAs hexponent hx hpos hsign hrounds
  refine ⟨m, hread, by simp, ?_, ?_, ?_⟩
  · rintro y ⟨⟩
    rcases hm with rfl | ⟨value, rfl, hvalue⟩
    · exact Double.isNearest_toRat hx
    · have hcast := hvalue.cast_eq
      rw [hsign] at hcast
      rw [toRat, hcast]
      exact Double.isNearest_of_rounds hx hpos hrounds
  · rintro y ⟨⟩ hzero
    exact absurd hzero hpos.ne'
  · rcases hm with rfl | ⟨value, rfl, hvalue⟩
    · rfl
    · exact hvalue.spelling_eq.symm.trans hspelling

/-- The text of a double is a numeral that is read back. It has an exponent exactly if the double is
not zero and beyond the bounds of positional notation. -/
theorem exists_numeral_double {x : Double} (hx : x.Valid) :
    ∃ (numeral : Numeral) (m : Number), numeral.spelling = x.text ∧ numeral.ReadsAs m ∧
      (double x).RereadAs m ∧ (numeral.exponent ≠ none ↔ x.units ≠ 0 ∧ ¬ x.IsPositional) := by
  by_cases hzero : x.units = 0
  · have htext : x.text = Text.signedDecimal 0 := by
      rw [Double.text, if_pos hzero]
      rfl
    refine ⟨integerNumeral 0, .integer 0, ?_, fun c => rfl, ⟨by simp, ?_, ?_, htext.symm⟩, ?_⟩
    · rw [spelling_integerNumeral, htext]
    · rintro y ⟨⟩
      rw [toRat, Int.cast_zero]
      exact Double.isNearest_zero hx hzero
    · intros
      rfl
    · simp [integerNumeral, hzero]
  · have hpos : 0 < x.units := Nat.pos_of_ne_zero hzero
    obtain ⟨numeral, hsign, htext, hvalue, hfits, hexponent⟩ :=
      Double.exists_numeral_shortest hx hpos
    have hrounds := Double.rounds_shortest .up hx.representable hpos
    rw [← hvalue] at hrounds
    obtain ⟨m, hread, hm⟩ := exists_rereadAs hx hpos hsign htext hfits hrounds
    exact ⟨numeral, m, htext, hread, hm, by rw [hexponent, and_iff_right hzero]⟩

/-- The text of a number that can be read is a numeral that is read back. It has an exponent exactly
if the number is a double that is not zero and beyond the bounds of positional notation. -/
theorem exists_numeral {n : Number} (hn : n.Valid) :
    ∃ (numeral : Numeral) (m : Number), numeral.spelling = n.text ∧ numeral.ReadsAs m ∧
      n.RereadAs m ∧
      (numeral.exponent ≠ none ↔ ∃ x, n = .double x ∧ x.units ≠ 0 ∧ ¬ x.IsPositional) := by
  cases n with
  | double x =>
    obtain ⟨numeral, m, hspelling, hread, hm, hexponent⟩ := exists_numeral_double hn
    refine ⟨numeral, m, hspelling, hread, hm, ?_⟩
    simp [hexponent]
  | integer value =>
    exact ⟨integerNumeral value, .integer value, spelling_integerNumeral value,
      numberOf_integerNumeral hn, ⟨fun _ h => h, by simp, by simp, rfl⟩, by simp [integerNumeral]⟩

end Number

namespace Double

/-- The double that is nearest to 10⁻⁶. -/
def millionth : Double := ⟨false, positionalBounds.1⟩

theorem valid_millionth : millionth.Valid where
  representable := representable_roundUnits _ _
  lt_limit := by decide +kernel

theorem isNearest_millionth : millionth.IsNearest (10 ^ (-6 : Int)) := by
  have hpos : 0 < millionth.units := by decide +kernel
  have hrounds : roundsTo millionth.units ⟨1, -6⟩ = true := by decide +kernel
  rw [roundsTo_iff valid_millionth.representable hpos, Decimal.toRat, Nat.cast_one, one_mul]
    at hrounds
  have hnearest := isNearest_of_rounds valid_millionth hpos hrounds
  rwa [sign, millionth, if_neg Bool.false_ne_true, one_mul] at hnearest

theorem positionalBounds_cast : ((positionalBounds.2 : Nat) : ℚ) = 10 ^ 21 * one := by
  rw [positionalBounds, Nat.cast_mul, cast_ten_pow]

/-- The bounds of positional notation as numbers. -/
theorem beyond_bounds_iff (x : Double) :
    x.units ≠ 0 ∧ ¬ x.IsPositional ↔
      x.toRat ≠ 0 ∧ (|x.toRat| < millionth.toRat ∨ 10 ^ 21 ≤ |x.toRat|) := by
  have hzero : x.toRat ≠ 0 ↔ x.units ≠ 0 := by
    rw [← abs_ne_zero, abs_toRat, div_ne_zero_iff, Nat.cast_ne_zero]
    exact and_iff_left one_cast_pos.ne'
  have hlow : |x.toRat| < millionth.toRat ↔ x.units < positionalBounds.1 := by
    rw [abs_toRat, toRat, sign, millionth, if_neg Bool.false_ne_true, one_mul,
      div_lt_div_iff_of_pos_right one_cast_pos, Nat.cast_lt]
  have hhigh : 10 ^ 21 ≤ |x.toRat| ↔ positionalBounds.2 ≤ x.units := by
    rw [abs_toRat, le_div_iff₀ one_cast_pos, ← positionalBounds_cast, Nat.cast_le]
  rw [hzero, hlow, hhigh, IsPositional, not_and_or, not_le, not_lt]

end Double

end Phrasebook
