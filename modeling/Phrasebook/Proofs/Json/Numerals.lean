import Phrasebook.Json.Scanner
import Phrasebook.Proofs.Text.Basic
import Mathlib.Tactic.IntervalCases

/-!
# Numerals of JSON

A JSON number is spelled by a sign, the digits in front of the point, the digits behind it, and an
exponent. A numeral holds these parts, and scanning its spelling gives them back.
-/

namespace Phrasebook.Json

/-! ### Digits -/

/-- A text is made of decimal digits, and there is at least one. -/
structure IsDigits (text : Text) : Prop where
  digits : ∀ c ∈ text, c.isDigit = true
  ne_nil : text ≠ []

/-- The digits in front of the point: they start with a zero only if it is alone. -/
structure IsWhole (text : Text) : Prop extends IsDigits text where
  zero : text.head? = some '0' → text = ['0']

/-- A text does not go on with a numeral. -/
def EndsNumeral (rest : Text) : Prop :=
  ∀ c ∈ rest.head?, c.isDigit = false ∧ c ∉ ['.', 'e', 'E']

theorem endsNumeral_nil : EndsNumeral [] := by
  simp [EndsNumeral]

theorem isDigits_decimal (n : Nat) : IsDigits (Text.decimal n) where
  digits _ := Text.isDigit_of_mem_decimal
  ne_nil := Nat.toDigits_ne_nil

/-- The numeral of a positive number does not start with a zero. -/
theorem head?_decimal_ne_zero {n : Nat} (h : n ≠ 0) : (Text.decimal n).head? ≠ some '0' := by
  induction n using Nat.strong_induction_on with
  | h n ih =>
    by_cases hsmall : n < 10
    · rw [Text.decimal, Nat.toDigits_of_lt_base hsmall]
      interval_cases n <;> simp_all
    · have hquotient : n / 10 ≠ 0 := by omega
      have hfront := ih (n / 10) (by omega) hquotient
      rw [Text.decimal, Nat.toDigits_of_base_le (by decide) (by omega)]
      rw [List.head?_append_of_ne_nil _ Nat.toDigits_ne_nil]
      exact hfront

theorem isWhole_decimal (n : Nat) : IsWhole (Text.decimal n) where
  toIsDigits := isDigits_decimal n
  zero := by
    intro hzero
    by_cases hn : n = 0
    · rw [hn]
      rfl
    · exact absurd hzero (head?_decimal_ne_zero hn)

theorem digitsValue_decimal (n : Nat) : digitsValue (Text.decimal n) = n :=
  Nat.ofDigitChars_ten_toDigits

/-! ### Scanning -/

theorem scanDigits_append {digits rest : Text} (hdigits : ∀ c ∈ digits, c.isDigit = true)
    (hrest : ∀ c ∈ rest.head?, c.isDigit = false) (offset : Nat) :
    scanDigits ⟨digits ++ rest, offset⟩ = (digits, ⟨rest, offset + digits.length⟩) := by
  have htake : rest.takeWhile Char.isDigit = [] ∧ rest.dropWhile Char.isDigit = rest := by
    cases rest with
    | nil => exact ⟨rfl, rfl⟩
    | cons c rest => simp [hrest c rfl]
  rw [scanDigits, List.takeWhile_append_of_pos hdigits, List.dropWhile_append_of_pos hdigits,
    htake.1, htake.2, List.append_nil]

theorem scanWhole_append {digits rest : Text} (hdigits : IsWhole digits)
    (hrest : ∀ c ∈ rest.head?, c.isDigit = false) (offset : Nat) :
    scanWhole ⟨digits ++ rest, offset⟩ = .ok (digits, ⟨rest, offset + digits.length⟩) := by
  obtain ⟨first, more, rfl⟩ := List.exists_cons_of_ne_nil hdigits.ne_nil
  by_cases hzero : first = '0'
  · have hnone : more = [] := by simpa [hzero] using hdigits.zero (by simp [hzero])
    rw [hzero, hnone]
    cases rest with
    | nil => rfl
    | cons c rest => simp [scanWhole, Cursor.advance, hrest c rfl]
  · have hfirst : first.isDigit = true := hdigits.digits first (by simp)
    rw [scanWhole, List.cons_append]
    simp only [hzero, hfirst, if_false, if_true]
    rw [← List.cons_append, scanDigits_append hdigits.digits hrest]

/-- The digits behind the point, with it. -/
def fractionText : Option Text → Text
  | none => []
  | some digits => '.' :: digits

/-- An exponent with its sign, which is always written. -/
def exponentText : Option Exponent → Text
  | none => []
  | some e => 'e' :: (if e.negative then '-' else '+') :: e.digits

theorem scanFraction_append {fraction : Option Text} {rest : Text}
    (hfraction : ∀ digits ∈ fraction, IsDigits digits)
    (hrest : ∀ c ∈ rest.head?, c.isDigit = false ∧ c ≠ '.') (offset : Nat) :
    scanFraction ⟨fractionText fraction ++ rest, offset⟩ =
      .ok (fraction, ⟨rest, offset + (fractionText fraction).length⟩) := by
  cases fraction with
  | none =>
    cases rest with
    | nil => rfl
    | cons c rest => simp [fractionText, scanFraction, (hrest c rfl).2]
  | some digits =>
    have hdigits := hfraction digits rfl
    have hscan := scanDigits_append hdigits.digits (fun c hc => (hrest c hc).1) (offset + 1)
    simp [fractionText, scanFraction, Cursor.advance, hscan, hdigits.ne_nil]
    omega

/-- The ways to write an exponent: the letter is small or capital, and a sign can be left out unless
it is a minus. -/
inductive SpellsExponent : Option Exponent → Text → Prop where
  | none : SpellsExponent none []
  | negative {letter : Char} (hletter : letter = 'e' ∨ letter = 'E') (digits : Text) :
      SpellsExponent (some ⟨true, digits⟩) (letter :: '-' :: digits)
  | positive {letter : Char} (hletter : letter = 'e' ∨ letter = 'E') (digits : Text) :
      SpellsExponent (some ⟨false, digits⟩) (letter :: '+' :: digits)
  | unsigned {letter : Char} (hletter : letter = 'e' ∨ letter = 'E') (digits : Text) :
      SpellsExponent (some ⟨false, digits⟩) (letter :: digits)

theorem spellsExponent_exponentText (exponent : Option Exponent) :
    SpellsExponent exponent (exponentText exponent) := by
  cases exponent with
  | none => exact .none
  | some e =>
    obtain ⟨negative, digits⟩ := e
    cases negative with
    | false => exact .positive (.inl rfl) digits
    | true => exact .negative (.inl rfl) digits

/-- Behind the letter, a sign is skipped and digits are read. -/
theorem scanExponent_cons {letter : Char} (hletter : letter = 'e' ∨ letter = 'E') {negative : Bool}
    {tail digits rest : Text} {offset start : Nat} (hsign : (tail.head? == some '-') = negative)
    (hskip : (if negative || tail.head? == some '+' then Cursor.advance ⟨tail, offset + 1⟩
      else ⟨tail, offset + 1⟩) = ⟨digits ++ rest, start⟩)
    (hdigits : IsDigits digits) (hrest : EndsNumeral rest) :
    scanExponent ⟨letter :: tail, offset⟩ =
      .ok (some ⟨negative, digits⟩, ⟨rest, start + digits.length⟩) := by
  have hscan := scanDigits_append hdigits.digits (fun c hc => (hrest c hc).1) start
  obtain ⟨first, more, rfl⟩ := List.exists_cons_of_ne_nil hdigits.ne_nil
  have hfirst : first.isDigit = true := hdigits.digits first (by simp)
  rw [List.cons_append] at hscan hskip
  have hadvance : Cursor.advance ⟨letter :: tail, offset⟩ = ⟨tail, offset + 1⟩ := rfl
  simp only [scanExponent, if_pos hletter, hadvance, hsign, hskip, if_pos hfirst, hscan]

theorem scanExponent_append {exponent : Option Exponent} {text rest : Text}
    (htext : SpellsExponent exponent text) (hexponent : ∀ e ∈ exponent, IsDigits e.digits)
    (hrest : EndsNumeral rest) (offset : Nat) :
    scanExponent ⟨text ++ rest, offset⟩ = .ok (exponent, ⟨rest, offset + text.length⟩) := by
  cases htext with
  | none =>
    cases rest with
    | nil => rfl
    | cons c rest =>
      have hc := (hrest c rfl).2
      simp only [List.mem_cons, List.not_mem_nil, or_false, not_or] at hc
      simp [scanExponent, hc]
  | negative hletter digits =>
    have hdigits : IsDigits digits := hexponent _ rfl
    have hlength : offset + (digits.length + 1 + 1) = offset + 2 + digits.length := by omega
    rw [List.cons_append, List.cons_append, List.length_cons, List.length_cons, hlength]
    refine scanExponent_cons hletter ?_ ?_ hdigits hrest
    · rfl
    · rfl
  | positive hletter digits =>
    have hdigits : IsDigits digits := hexponent _ rfl
    have hlength : offset + (digits.length + 1 + 1) = offset + 2 + digits.length := by omega
    rw [List.cons_append, List.cons_append, List.length_cons, List.length_cons, hlength]
    refine scanExponent_cons hletter ?_ ?_ hdigits hrest
    · rfl
    · rfl
  | unsigned hletter digits =>
    have hdigits : IsDigits digits := hexponent _ rfl
    have hhead (sign : Char) (hsign : sign.isDigit = false) :
        ((digits ++ rest).head? == some sign) = false := by
      rw [beq_eq_false_iff_ne, List.head?_append_of_ne_nil _ hdigits.ne_nil]
      intro h
      rw [hdigits.digits sign (List.mem_of_head? h)] at hsign
      cases hsign
    have hlength : offset + (digits.length + 1) = offset + 1 + digits.length := by omega
    rw [List.cons_append, List.length_cons, hlength]
    refine scanExponent_cons hletter (hhead '-' rfl) ?_ hdigits hrest
    rw [hhead '+' rfl]
    rfl

/-! ### Numerals -/

/-- The parts of a JSON number. -/
structure Numeral where
  negative : Bool
  whole : Text
  fraction : Option Text
  exponent : Option Exponent
  isWhole : IsWhole whole
  isDigits_fraction : ∀ digits ∈ fraction, IsDigits digits
  isDigits_exponent : ∀ e ∈ exponent, IsDigits e.digits

namespace Numeral

/-- The text of a numeral. -/
def spelling (n : Numeral) : Text :=
  (if n.negative then ['-'] else []) ++ n.whole ++ fractionText n.fraction ++
    exponentText n.exponent

/-- A text spells a numeral, with any way to write the exponent. -/
def IsSpelling (n : Numeral) (text : Text) : Prop :=
  ∃ exponent, SpellsExponent n.exponent exponent ∧
    text = (if n.negative then ['-'] else []) ++ n.whole ++ fractionText n.fraction ++ exponent

theorem isSpelling_spelling (n : Numeral) : n.IsSpelling n.spelling :=
  ⟨exponentText n.exponent, spellsExponent_exponentText n.exponent, rfl⟩

end Numeral

theorem head?_spellsExponent {exponent : Option Exponent} {text rest : Text}
    (htext : SpellsExponent exponent text) (hrest : EndsNumeral rest) :
    ∀ c ∈ (text ++ rest).head?, c.isDigit = false ∧ c ≠ '.' := by
  have hletter {letter : Char} (h : letter = 'e' ∨ letter = 'E') :
      letter.isDigit = false ∧ letter ≠ '.' := by
    rcases h with rfl | rfl <;> decide
  cases htext with
  | none =>
    intro c hc
    have hend := hrest c hc
    simp only [List.mem_cons, not_or] at hend
    exact ⟨hend.1, hend.2.1⟩
  | negative h | positive h | unsigned h =>
    rintro c ⟨⟩
    exact hletter h

theorem head?_fractionText (fraction : Option Text) {rest : Text}
    (hrest : ∀ c ∈ rest.head?, c.isDigit = false) :
    ∀ c ∈ (fractionText fraction ++ rest).head?, c.isDigit = false := by
  cases fraction with
  | none => exact hrest
  | some digits =>
    rintro c ⟨⟩
    decide

/-- The parts of a numeral are read from every text that spells it. -/
theorem scanNumber_of_isSpelling {n : Numeral} {text : Text} (htext : n.IsSpelling text)
    {rest : Text} (hrest : EndsNumeral rest) (offset : Nat) :
    scanNumber ⟨text ++ rest, offset⟩ =
      numberOf n.negative n.whole n.fraction n.exponent ⟨rest, offset + text.length⟩ := by
  obtain ⟨negative, whole, fraction, exponent, hwhole, hfraction, hexponent⟩ := n
  obtain ⟨exponentText, hspells, rfl⟩ := htext
  have hexponentHead := head?_spellsExponent hspells hrest
  have hfractionHead := head?_fractionText fraction fun c hc => (hexponentHead c hc).1
  obtain ⟨body, hbody⟩ :
      ∃ body, body = whole ++ (fractionText fraction ++ (exponentText ++ rest)) := ⟨_, rfl⟩
  have hminus : (body.head? == some '-') = false := by
    rw [beq_eq_false_iff_ne, hbody, List.head?_append_of_ne_nil _ hwhole.ne_nil]
    intro hminus
    exact absurd (hwhole.digits _ (List.mem_of_head? hminus)) (by decide)
  have hspelling : ((if negative then ['-'] else []) ++ whole ++ fractionText fraction ++
      exponentText ++ rest) = (if negative then ['-'] else []) ++ body := by
    rw [hbody]
    simp only [List.append_assoc]
  obtain ⟨start, hstart⟩ : ∃ start, start = offset + (if negative then ['-'] else []).length :=
    ⟨_, rfl⟩
  have hsign : (((if negative then ['-'] else []) ++ body).head? == some '-') = negative := by
    cases negative with
    | false => simpa using hminus
    | true => rfl
  have hskip : (if negative then Cursor.advance ⟨(if negative then ['-'] else []) ++ body, offset⟩
      else ⟨(if negative then ['-'] else []) ++ body, offset⟩) = ⟨body, start⟩ := by
    cases negative <;> simp [Cursor.advance, hstart]
  dsimp only
  rw [hspelling, scanNumber]
  simp only [hsign, hskip]
  rw [hbody, scanWhole_append hwhole hfractionHead]
  simp only [bind, Except.bind, scanFraction_append hfraction hexponentHead,
    scanExponent_append hspells hexponent hrest]
  congr 2
  simp only [List.length_append, hstart]
  omega

/-- The parts of a numeral are read back from its spelling. -/
theorem scanNumber_spelling (n : Numeral) {rest : Text} (hrest : EndsNumeral rest) (offset : Nat) :
    scanNumber ⟨n.spelling ++ rest, offset⟩ =
      numberOf n.negative n.whole n.fraction n.exponent ⟨rest, offset + n.spelling.length⟩ :=
  scanNumber_of_isSpelling n.isSpelling_spelling hrest offset

/-! ### Integers -/

/-- The numeral of an integer. -/
def integerNumeral (n : Int) : Numeral where
  negative := decide (n < 0)
  whole := Text.decimal n.natAbs
  fraction := none
  exponent := none
  isWhole := isWhole_decimal n.natAbs
  isDigits_fraction := by simp
  isDigits_exponent := by simp

theorem spelling_integerNumeral (n : Int) : (integerNumeral n).spelling = Text.signedDecimal n := by
  rw [Numeral.spelling]
  cases n with
  | ofNat n => simp [integerNumeral, fractionText, exponentText, Text.signedDecimal]
  | negSucc n => simp [integerNumeral, fractionText, exponentText, Text.signedDecimal]

/-- An integer has at most 64 bits. -/
def Fits (n : Int) : Prop := -2 ^ 63 ≤ n ∧ n < 2 ^ 64

theorem integer?_of_fits {n : Int} (h : Fits n) : integer? (decide (n < 0)) n.natAbs = some n := by
  obtain ⟨hlow, hhigh⟩ := h
  have hlowPower : Nat.pow 2 63 = 9223372036854775808 := rfl
  have hhighPower : Nat.pow 2 64 = 18446744073709551616 := rfl
  rw [integer?]
  by_cases hsign : n < 0
  · rw [if_pos (by simpa using hsign), if_pos (by omega)]
    congr 1
    omega
  · rw [if_neg (by simpa using hsign), if_pos (by omega)]
    congr 1
    omega

theorem numberOf_integerNumeral {n : Int} (h : Fits n) (c : Cursor) :
    numberOf (integerNumeral n).negative (integerNumeral n).whole (integerNumeral n).fraction
      (integerNumeral n).exponent c = .ok (.integer n, c) := by
  have hvalue : digitsValue (Text.decimal n.natAbs ++ []) = n.natAbs := by
    rw [List.append_nil, digitsValue_decimal]
  simp only [numberOf, integerNumeral, Option.getD_none, hvalue, integer?_of_fits h]

/-- Integers of 64 bits are read back. -/
theorem scanNumber_signedDecimal {n : Int} (h : Fits n) {rest : Text} (hrest : EndsNumeral rest)
    (offset : Nat) :
    scanNumber ⟨Text.signedDecimal n ++ rest, offset⟩ =
      .ok (.integer n, ⟨rest, offset + (Text.signedDecimal n).length⟩) := by
  rw [← spelling_integerNumeral, scanNumber_spelling _ hrest, numberOf_integerNumeral h]

end Phrasebook.Json
