import Phrasebook.Text.Basic
import Mathlib.Data.List.Basic
import Mathlib.Tactic.ByContra
import Mathlib.Tactic.SplitIfs

/-!
# Bytes of texts

A text takes a number of bytes in UTF-8, and positions are counted in them. An ASCII character is a
single byte, and that byte occurs in no other character. So whatever is said about ASCII characters
can be said about bytes, and a position inside of a character is as good as the one in front of it.
-/

namespace Phrasebook.Text

/-- The bytes of a text in UTF-8. -/
def bytes (text : Text) : List UInt8 := text.flatMap String.utf8EncodeChar

@[simp] theorem bytes_nil : bytes [] = [] := rfl

@[simp] theorem bytes_cons (c : Char) (rest : Text) :
    bytes (c :: rest) = String.utf8EncodeChar c ++ bytes rest := rfl

@[simp] theorem bytes_append (a b : Text) : bytes (a ++ b) = bytes a ++ bytes b :=
  List.flatMap_append

@[simp] theorem length_bytes (text : Text) : (bytes text).length = width text := by
  induction text with
  | nil => rfl
  | cons c rest ih => simp [ih]

/-- A character is in ASCII. -/
def IsAscii (c : Char) : Prop := c.toNat < 128

instance : DecidablePred IsAscii := fun c => inferInstanceAs (Decidable (c.toNat < 128))

theorem utf8EncodeChar_of_isAscii {c : Char} (h : IsAscii c) :
    String.utf8EncodeChar c = [c.toUInt8] := by
  have hval : c.val.toNat ≤ 127 := Nat.le_of_lt_succ h
  rw [String.utf8EncodeChar]
  simp only [hval, if_true]
  rfl

/-- All bytes of a character outside of ASCII lie above the ASCII bytes. -/
theorem le_of_mem_utf8EncodeChar {c : Char} (h : ¬ IsAscii c) :
    ∀ b ∈ String.utf8EncodeChar c, 128 ≤ b.toNat := by
  have hval : ¬ c.val.toNat ≤ 127 := fun hle => h (Nat.lt_succ_of_le hle)
  rw [String.utf8EncodeChar]
  simp only [hval, if_false]
  split_ifs
  all_goals
    simp only [List.forall_mem_cons, UInt8.toNat_ofNat', List.not_mem_nil, false_imp_iff,
      implies_true, and_true]
    omega

theorem toNat_toUInt8 {c : Char} (h : IsAscii c) : c.toUInt8.toNat = c.toNat := by
  have hlt : c.toNat < 2 ^ 8 := Nat.lt_trans h (by decide)
  exact Nat.mod_eq_of_lt hlt

theorem toUInt8_inj {a c : Char} (ha : IsAscii a) (hc : IsAscii c) :
    a.toUInt8 = c.toUInt8 ↔ a = c := by
  refine ⟨fun h => ?_, fun h => h ▸ rfl⟩
  have hnat := congrArg UInt8.toNat h
  rw [toNat_toUInt8 ha, toNat_toUInt8 hc] at hnat
  exact Char.toNat_inj.mp hnat

section Ascii

variable {a : Char} (ha : IsAscii a)

include ha

/-- The byte of an ASCII character occurs in no other character. -/
theorem not_mem_utf8EncodeChar {c : Char} (h : c ≠ a) : a.toUInt8 ∉ String.utf8EncodeChar c := by
  intro hmem
  by_cases hc : IsAscii c
  · rw [utf8EncodeChar_of_isAscii hc, List.mem_singleton, toUInt8_inj ha hc] at hmem
    exact h hmem.symm
  · have hle := le_of_mem_utf8EncodeChar hc _ hmem
    rw [toNat_toUInt8 ha] at hle
    exact absurd ha (Nat.not_lt.mpr hle)

/-- ASCII characters are counted as bytes. -/
theorem count_bytes (text : Text) : (bytes text).count a.toUInt8 = text.count a := by
  induction text with
  | nil => rfl
  | cons c rest ih =>
    rw [bytes_cons, List.count_append, ih]
    by_cases hc : c = a
    · rw [hc, utf8EncodeChar_of_isAscii ha, List.count_singleton_self, List.count_cons_self,
        Nat.add_comm]
    · rw [List.count_eq_zero.mpr (not_mem_utf8EncodeChar ha hc), List.count_cons_of_ne hc,
        Nat.zero_add]

/-- An ASCII character stands where its byte stands. -/
theorem getElem?_bytes_eq_some_iff {text : Text} {i : Nat} :
    (bytes text)[i]? = some a.toUInt8 ↔
      ∃ front back, text = front ++ a :: back ∧ width front = i := by
  constructor
  · intro h
    induction text generalizing i with
    | nil => simp at h
    | cons c rest ih =>
      rw [bytes_cons] at h
      by_cases hi : i < c.utf8Size
      · rw [List.getElem?_append_left (by rwa [String.length_utf8EncodeChar])] at h
        have hmem := List.mem_of_getElem? h
        obtain rfl : c = a := by
          by_contra hc
          exact not_mem_utf8EncodeChar ha hc hmem
        rw [utf8EncodeChar_of_isAscii ha] at h
        have hzero : i = 0 := by
          by_contra hne
          rw [List.getElem?_eq_none (by simp; omega)] at h
          cases h
        exact ⟨[], rest, rfl, hzero.symm⟩
      · rw [List.getElem?_append_right (by rw [String.length_utf8EncodeChar]; omega),
          String.length_utf8EncodeChar] at h
        obtain ⟨front, back, rfl, hwidth⟩ := ih h
        refine ⟨c :: front, back, rfl, ?_⟩
        rw [width_cons, hwidth]
        omega
  · rintro ⟨front, back, rfl, rfl⟩
    rw [bytes_append, bytes_cons, utf8EncodeChar_of_isAscii ha,
      List.getElem?_append_right (Nat.le_of_eq (length_bytes _)), length_bytes, Nat.sub_self]
    rfl

end Ascii

theorem eq_nil_of_width_eq_zero {text : Text} (h : width text = 0) : text = [] := by
  cases text with
  | nil => rfl
  | cons c rest =>
    have hsize := c.utf8Size_pos
    rw [width_cons] at h
    omega

/-- Of two texts that a text starts with, the one with fewer bytes starts the other one. -/
theorem prefix_of_width_le {text a b : Text} (ha : a <+: text) (hb : b <+: text)
    (h : width a ≤ width b) : a <+: b := by
  rcases List.prefix_or_prefix_of_prefix ha hb with hab | ⟨more, rfl⟩
  · exact hab
  · rw [width_append] at h
    obtain rfl : more = [] := eq_nil_of_width_eq_zero (by omega)
    simp

/-- The first bytes of a text are those of all characters that end among them, and perhaps some of
a character that is not in ASCII. -/
theorem exists_take_bytes (text : Text) (i : Nat) :
    ∃ front part, front <+: text ∧ (∀ other, other <+: text → width other ≤ i → other <+: front) ∧
      (bytes text).take i = bytes front ++ part ∧ ∀ b ∈ part, 128 ≤ b.toNat := by
  induction text generalizing i with
  | nil => exact ⟨[], [], List.nil_prefix, by simp, by simp, by simp⟩
  | cons c rest ih =>
    by_cases hi : c.utf8Size ≤ i
    · obtain ⟨front, part, hfront, hlongest, htake, hpart⟩ := ih (i - c.utf8Size)
      refine ⟨c :: front, part, (List.prefix_cons_inj c).mpr hfront, ?_, ?_, hpart⟩
      · intro other hother hwidth
        rcases List.prefix_cons_iff.mp hother with rfl | ⟨more, rfl, hmore⟩
        · exact List.nil_prefix
        · rw [width_cons] at hwidth
          exact (List.prefix_cons_inj c).mpr (hlongest more hmore (by omega))
      · rw [bytes_cons, bytes_cons, List.take_append, String.length_utf8EncodeChar, htake,
          List.take_of_length_le (by rwa [String.length_utf8EncodeChar]), List.append_assoc]
    · refine ⟨[], (String.utf8EncodeChar c).take i, List.nil_prefix, ?_, ?_, ?_⟩
      · intro other hother hwidth
        rcases List.prefix_cons_iff.mp hother with rfl | ⟨more, rfl, -⟩
        · exact List.nil_prefix
        · rw [width_cons] at hwidth
          omega
      · rw [bytes_cons, List.take_append_of_le_length (by rw [String.length_utf8EncodeChar]; omega)]
        rfl
      · intro b hb
        refine le_of_mem_utf8EncodeChar (fun hc => ?_) b (List.mem_of_mem_take hb)
        have hlength := String.length_utf8EncodeChar c
        rw [utf8EncodeChar_of_isAscii hc, List.length_singleton] at hlength
        obtain rfl : i = 0 := by omega
        simp at hb

end Phrasebook.Text
