import Phrasebook.Proofs.Lists
import Phrasebook.Proofs.Text.Basic
import Mathlib.Data.List.DropRight

/-!
# Blanks around texts

Trimming takes the blanks off both ends of a text, and nothing else: a text is what trimming leaves
of it, between blanks.
-/

namespace Phrasebook.Text

/-- A text consists of blanks. -/
def Blank (text : Text) : Prop := ∀ c ∈ text, isBlank c = true

/-- A text does not start with a blank. -/
def StartsSolid (text : Text) : Prop := ∀ c ∈ text.head?, isBlank c = false

theorem isBlank_of_isWordChar {c : Char} (h : isWordChar c = true) : isBlank c = false := by
  have hrange : c.toNat < 128 ∧ 48 ≤ c.toNat := by
    rw [isWordChar, Bool.or_eq_true, isAlphanum_iff, beq_iff_eq] at h
    rcases h with h | rfl
    · omega
    · decide
  simp only [isBlank, Bool.or_eq_false_iff, Bool.and_eq_false_iff, decide_eq_false_iff_not,
    beq_eq_false_iff_ne]
  omega

theorem trimStart_append {blanks rest : Text} (hblanks : Blank blanks) (hrest : StartsSolid rest) :
    trimStart (blanks ++ rest) = rest :=
  Lists.dropWhile_run hblanks hrest

theorem trimEnd_append {blanks rest : Text} (hblanks : Blank blanks)
    (hrest : StartsSolid rest.reverse) : trimEnd (rest ++ blanks) = rest := by
  have hreverse : Blank blanks.reverse := fun c hc => hblanks c (List.mem_reverse.mp hc)
  have htrim := trimStart_append hreverse hrest
  rw [trimStart, ← List.reverse_append] at htrim
  rw [trimEnd, htrim, List.reverse_reverse]

theorem startsSolid_of_word {word : Text} (h : ∀ c ∈ word, isWordChar c = true) (hne : word ≠ [])
    (rest : Text) : StartsSolid (word ++ rest) := by
  cases word with
  | nil => exact absurd rfl hne
  | cons c word => simpa [StartsSolid] using isBlank_of_isWordChar (h c (by simp))

/-- Trimming takes the blanks off a word. -/
theorem trim_padded {before word after : Text} (hbefore : Blank before) (hafter : Blank after)
    (hword : ∀ c ∈ word, isWordChar c = true) (hne : word ≠ []) :
    trim (before ++ word ++ after) = word := by
  have hreverse : ∀ c ∈ word.reverse, isWordChar c = true :=
    fun c hc => hword c (List.mem_reverse.mp hc)
  have hsolid := startsSolid_of_word hreverse (by simpa using hne) []
  rw [List.append_nil] at hsolid
  rw [trim, List.append_assoc, trimStart_append hbefore (startsSolid_of_word hword hne after),
    trimEnd_append hafter hsolid]

/-- A text is what trimming leaves of it, between blanks. -/
theorem exists_padding (text : Text) :
    ∃ before after, Blank before ∧ Blank after ∧ text = before ++ trim text ++ after := by
  refine ⟨text.takeWhile isBlank, ((trimStart text).reverse.takeWhile isBlank).reverse, ?_, ?_, ?_⟩
  · exact fun c hc => List.mem_takeWhile_imp hc
  · exact fun c hc => List.mem_takeWhile_imp (List.mem_reverse.mp hc)
  · rw [trim, trimEnd, List.append_assoc, ← List.reverse_append, List.takeWhile_append_dropWhile,
      List.reverse_reverse, trimStart, List.takeWhile_append_dropWhile]

theorem Blank.trim_eq_nil {text : Text} (h : Blank text) : trim text = [] := by
  have hstart : trimStart text = [] := by
    simpa using @trimStart_append text [] h (by simp [StartsSolid])
  rw [trim, hstart]
  rfl

theorem blank_of_trim_eq_nil {text : Text} (h : trim text = []) : Blank text := by
  obtain ⟨before, after, hbefore, hafter, htext⟩ := exists_padding text
  rw [h, List.append_nil] at htext
  intro c hc
  rw [htext] at hc
  exact (List.mem_append.mp hc).elim (hbefore c) (hafter c)

/-- Without the blanks around it, a text has no blanks around it. -/
theorem trim_trim (text : Text) : trim (trim text) = trim text := by
  have hend : trimEnd (trim text) = trim text := List.rdropWhile_idempotent _ _
  have hstart : trimStart (trim text) = trim text := by
    -- What is taken off the end leaves the start as it is, and there is no blank at the start.
    cases htrim : trim text with
    | nil => rfl
    | cons c rest =>
      have hfront : c :: rest <+: trimStart text := by
        rw [← htrim]
        exact List.rdropWhile_prefix _ _
      obtain ⟨after, hafter⟩ := hfront
      have hsolid : isBlank c = false := by
        have hhead := List.head?_dropWhile_not isBlank text
        rw [← trimStart, ← hafter] at hhead
        simpa using hhead
      rw [trimStart, List.dropWhile_cons_of_neg (by simp [hsolid])]
  calc trim (trim text) = trimEnd (trimStart (trim text)) := rfl
    _ = trimEnd (trim text) := by rw [hstart]
    _ = trim text := hend

end Phrasebook.Text
