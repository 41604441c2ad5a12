import Phrasebook.Text.Basic
import Mathlib.Data.Char
import Mathlib.Data.List.Lex

/-!
# Characters, decimals and the order of texts

Letters and digits of ASCII are known by their codes. The numeral of a natural number is made of
digits, each of which takes one byte, and the number is read back from it. Texts are compared as
lists of characters.
-/

namespace Phrasebook.Text

/-! ### Characters -/

theorem isUpper_iff {c : Char} : c.isUpper = true ↔ 65 ≤ c.toNat ∧ c.toNat ≤ 90 := by
  change decide (65 ≤ c.val ∧ c.val ≤ 90) = true ↔ _
  rw [decide_eq_true_eq, UInt32.le_iff_toNat_le, UInt32.le_iff_toNat_le]
  exact Iff.rfl

theorem isLower_iff {c : Char} : c.isLower = true ↔ 97 ≤ c.toNat ∧ c.toNat ≤ 122 := by
  change (decide (97 ≤ c.val) && decide (c.val ≤ 122)) = true ↔ _
  rw [Bool.and_eq_true, decide_eq_true_eq, decide_eq_true_eq, UInt32.le_iff_toNat_le,
    UInt32.le_iff_toNat_le]
  exact Iff.rfl

theorem isDigit_iff {c : Char} : c.isDigit = true ↔ 48 ≤ c.toNat ∧ c.toNat ≤ 57 := by
  simp [Char.isDigit, UInt32.le_iff_toNat_le]

theorem isAlpha_iff {c : Char} :
    c.isAlpha = true ↔ (65 ≤ c.toNat ∧ c.toNat ≤ 90) ∨ (97 ≤ c.toNat ∧ c.toNat ≤ 122) := by
  rw [← isUpper_iff, ← isLower_iff, ← Bool.or_eq_true]
  exact Iff.rfl

theorem isAlphanum_iff {c : Char} : c.isAlphanum = true ↔
    ((65 ≤ c.toNat ∧ c.toNat ≤ 90) ∨ (97 ≤ c.toNat ∧ c.toNat ≤ 122)) ∨
      (48 ≤ c.toNat ∧ c.toNat ≤ 57) := by
  rw [← isAlpha_iff, ← isDigit_iff, ← Bool.or_eq_true]
  exact Iff.rfl

theorem digitChar_of_isDigit {c : Char} (h : c.isDigit = true) :
    c.toNat - '0'.toNat < 10 ∧ Nat.digitChar (c.toNat - '0'.toNat) = c := by
  obtain ⟨hlow, hhigh⟩ := isDigit_iff.mp h
  have hzero : '0'.toNat = 48 := rfl
  have hlt : c.toNat - '0'.toNat < 10 := by omega
  refine ⟨hlt, Char.toNat_inj.mp ?_⟩
  rw [Nat.toNat_digitChar_of_lt_ten hlt]
  omega

theorem utf8Size_of_isDigit {c : Char} (h : c.isDigit = true) : c.utf8Size = 1 := by
  obtain ⟨-, hhigh⟩ := isDigit_iff.mp h
  rw [Char.utf8Size_eq_one_iff, UInt32.le_iff_toNat_le]
  exact Nat.le_trans hhigh (by decide)

theorem isAlphanum_toUpper {c : Char} (h : c.isAlphanum = true) : c.toUpper.isAlphanum = true := by
  have hascii : c.toNat < 128 := by
    rw [isAlphanum_iff] at h
    omega
  have hall : ∀ n < 128, (Char.ofNat n).isAlphanum = true →
      (Char.ofNat n).toUpper.isAlphanum = true := by decide
  have hc := hall c.toNat hascii
  rw [Char.ofNat_toNat] at hc
  exact hc h

/-! ### Decimal numerals -/

theorem isDigit_of_mem_decimal {n : Nat} {c : Char} (h : c ∈ decimal n) : c.isDigit = true :=
  Nat.isDigit_of_mem_toDigits (by decide) (by decide) h

theorem not_mem_decimal {c : Char} (h : c.isDigit = false) (n : Nat) : c ∉ decimal n := by
  intro hc
  rw [isDigit_of_mem_decimal hc] at h
  exact absurd h (by decide)

theorem decimal_injective : Function.Injective decimal := by
  intro m n h
  rw [← Nat.ofDigitChars_ten_toDigits (n := m), ← Nat.ofDigitChars_ten_toDigits (n := n)]
  exact congrArg (fun digits => Nat.ofDigitChars 10 digits 0) h

theorem width_decimal (n : Nat) : width (decimal n) = (decimal n).length := by
  have hall (digits : Text) (h : ∀ c ∈ digits, c.isDigit = true) :
      width digits = digits.length := by
    induction digits with
    | nil => rfl
    | cons c digits ih =>
      obtain ⟨hc, hdigits⟩ := List.forall_mem_cons.mp h
      rw [width_cons, utf8Size_of_isDigit hc, ih hdigits, List.length_cons, Nat.add_comm]
  exact hall _ fun _ hc => isDigit_of_mem_decimal hc

theorem width_signedDecimal (n : Int) : width (signedDecimal n) = (signedDecimal n).length := by
  cases n with
  | ofNat n => exact width_decimal n
  | negSucc n =>
    have hminus : ('-').utf8Size = 1 := rfl
    rw [signedDecimal, width_cons, width_decimal, hminus, List.length_cons, Nat.add_comm]

/-! ### The order of texts -/

theorem notAfter_iff {a b : Text} : notAfter a b = true ↔ a ≤ b := by
  have hlex : List.lex b a (fun c d => c.toNat < d.toNat) = true ↔ b < a := by
    rw [List.lex_eq_true_iff_lex]
    simp only [decide_eq_true_eq]
    exact Iff.rfl
  rw [notAfter, Bool.not_eq_true', ← Bool.not_eq_true, hlex]
  exact not_lt

end Phrasebook.Text
