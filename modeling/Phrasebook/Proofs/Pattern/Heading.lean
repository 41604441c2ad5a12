import Phrasebook.Pattern.Header
import Phrasebook.Proofs.Text.Blanks
import Mathlib.Data.Char
import Mathlib.Data.List.TakeWhile
import Mathlib.Tactic.SplitIfs

/-!
# Spellings of names and headers

A name with blanks around it and the header of a select can be spelled in many ways. A heading
keeps all parts of one spelling, and reading a header finds exactly the headings in front of a text.
-/

namespace Phrasebook

namespace Pattern

open Text

/-! ### The keyword -/

/-- A character under simple case folding, as far as letters of ASCII go: the long s is the only
character besides the letter itself and its capital that folds to a letter of the keyword. -/
def foldCase (c : Char) : Char := if c = 'ſ' then 's' else c.toLower

/-- A text is the keyword `select` up to simple case folding. -/
def IsSelectWord (word : Text) : Prop := word.map foldCase = "select"

theorem foldsTo_iff {letter c : Char} (h : letter ≠ 'ſ') :
    foldsTo letter c = true ↔ foldCase c = letter := by
  rw [foldsTo, foldCase]
  by_cases hlong : c = 'ſ'
  · subst hlong
    have hlower : ('ſ'.toLower == letter) = false := by simpa using h.symm
    simp only [hlower, beq_self_eq_true, Bool.and_true, Bool.false_or, beq_iff_eq, if_true]
    exact eq_comm
  · simp [hlong]

/-- A keyword is found in front of a text in any spelling, and in no other way. -/
theorem dropKeyword_eq_some_iff {keyword text rest : Text} (h : 'ſ' ∉ keyword) :
    dropKeyword keyword text = some rest ↔
      ∃ word, word.map foldCase = keyword ∧ text = word ++ rest := by
  induction keyword generalizing text with
  | nil => simp [dropKeyword, eq_comm]
  | cons letter keyword ih =>
    simp only [List.mem_cons, not_or] at h
    cases text with
    | nil =>
      simp only [dropKeyword, reduceCtorEq, false_iff, not_exists, not_and]
      rintro word hword hnil
      simp_all
    | cons c text =>
      rw [dropKeyword]
      by_cases hfold : foldsTo letter c = true
      · rw [if_pos hfold, ih h.2]
        have hc := (foldsTo_iff (Ne.symm h.1)).mp hfold
        constructor
        · rintro ⟨word, hword, rfl⟩
          exact ⟨c :: word, by simp [hc, hword], rfl⟩
        · rintro ⟨word, hword, htext⟩
          cases word with
          | nil => simp at hword
          | cons d word =>
            simp only [List.map_cons, List.cons.injEq, List.cons_append] at hword htext
            exact ⟨word, hword.2, htext.2⟩
      · rw [if_neg hfold]
        simp only [reduceCtorEq, false_iff, not_exists, not_and]
        rintro word hword htext
        cases word with
        | nil => simp at hword
        | cons d word =>
          simp only [List.map_cons, List.cons.injEq, List.cons_append] at hword htext
          rw [htext.1] at hfold
          exact hfold ((foldsTo_iff (Ne.symm h.1)).mpr hword.1)

/-- No letter of the keyword is a blank. -/
theorem isBlank_of_isSelectWord {word : Text} (h : IsSelectWord word) :
    ∀ c ∈ word, isBlank c = false := by
  intro c hc
  have hfold : foldCase c ∈ ("select" : Text) := by
    rw [← h]
    exact List.mem_map_of_mem hc
  have hletters : ∀ d ∈ ("select" : Text), isBlank d = false := by simp [isBlank]
  by_cases hlong : c = 'ſ'
  · subst hlong
    decide
  rw [foldCase, if_neg hlong] at hfold
  by_cases hupper : c.isUpper = true
  · have hletter := isAlphanum_iff.mpr (.inl (.inl (isUpper_iff.mp hupper)))
    exact isBlank_of_isWordChar (by simp [isWordChar, hletter])
  · have hlower : c.toLower = c := dif_neg fun hcapital => hupper (decide_eq_true hcapital)
    rw [hlower] at hfold
    exact hletters c hfold

/-! ### Headings -/

/-- The parts of a header: a name, a comma, the keyword and a comma, with blanks in four places. -/
structure Heading where
  beforeName : Text
  name : Text
  afterName : Text
  beforeKeyword : Text
  keyword : Text
  afterKeyword : Text
  deriving DecidableEq, Repr

namespace Heading

/-- How a heading is spelled. -/
def spell (h : Heading) : Text :=
  h.beforeName ++ h.name ++ h.afterName ++ [','] ++ h.beforeKeyword ++ h.keyword ++
    h.afterKeyword ++ [',']

/-- The blanks are blanks, the name is a word, and the keyword is `select` in some spelling. -/
structure Valid (h : Heading) : Prop where
  beforeName : Blank h.beforeName
  name_ne_nil : h.name ≠ []
  name : ∀ c ∈ h.name, isWordChar c = true
  afterName : Blank h.afterName
  beforeKeyword : Blank h.beforeKeyword
  keyword : IsSelectWord h.keyword
  afterKeyword : Blank h.afterKeyword

end Heading

theorem dropComma_append {blanks : Text} (h : Blank blanks) (rest : Text) :
    dropComma (blanks ++ ',' :: rest) = some rest := by
  have hsolid : StartsSolid (',' :: rest) := by simp [StartsSolid, isBlank]
  rw [dropComma, trimStart_append h hsolid]
  simp

theorem exists_of_dropComma {text rest : Text} (h : dropComma text = some rest) :
    ∃ blanks, Blank blanks ∧ text = blanks ++ ',' :: rest := by
  rw [dropComma] at h
  split at h
  · simp at h
  · rename_i c more htrim
    split_ifs at h with hcomma
    obtain rfl := Option.some_inj.mp h
    refine ⟨text.takeWhile isBlank, fun d hd => List.mem_takeWhile_imp hd, ?_⟩
    rw [← hcomma, ← htrim, trimStart, List.takeWhile_append_dropWhile]

/-- A comma ends blanks and words. -/
theorem head?_comma (blanks rest : Text) (hblanks : Blank blanks) :
    ∀ c ∈ (blanks ++ ',' :: rest).head?, isWordChar c = false := by
  cases blanks with
  | nil =>
    rintro c ⟨⟩
    rfl
  | cons b blanks =>
    rintro c ⟨⟩
    cases hword : isWordChar b with
    | false => rfl
    | true => exact absurd (hblanks b (by simp)) (by simp [isBlank_of_isWordChar hword])

theorem startsSolid_comma (rest : Text) : StartsSolid (',' :: rest) := by
  rintro c ⟨⟩
  rfl

theorem startsSolid_keyword {word : Text} (h : IsSelectWord word) (rest : Text) :
    StartsSolid (word ++ rest) := by
  cases word with
  | nil => simp [IsSelectWord] at h
  | cons c word =>
    rintro d ⟨⟩
    exact isBlank_of_isSelectWord h c (by simp)

namespace Heading

variable {h : Heading}

theorem spell_append (h : Heading) (rest : Text) :
    h.spell ++ rest = h.beforeName ++ (h.name ++ (h.afterName ++ ',' :: (h.beforeKeyword ++
      (h.keyword ++ (h.afterKeyword ++ ',' :: rest))))) := by
  simp [spell]

/-- A heading in front of a text is read. -/
theorem Valid.read?_append (valid : h.Valid) (rest : Text) :
    Header.read? (h.spell ++ rest) = some ⟨h.name, rest⟩ := by
  have hname (more : Text) : trimStart (h.beforeName ++ (h.name ++ more)) = h.name ++ more :=
    trimStart_append valid.beforeName (startsSolid_of_word valid.name valid.name_ne_nil more)
  have hafter := fun more => head?_comma h.afterName more valid.afterName
  have hkeyword (more : Text) : trimStart (h.beforeKeyword ++ (h.keyword ++ more)) =
      h.keyword ++ more :=
    trimStart_append valid.beforeKeyword (startsSolid_keyword valid.keyword more)
  have hdrop (more : Text) : dropKeyword "select" (h.keyword ++ more) = some more :=
    (dropKeyword_eq_some_iff (by decide)).mpr ⟨h.keyword, valid.keyword, rfl⟩
  rw [spell_append, Header.read?, hname]
  simp only [Lists.takeWhile_run valid.name (hafter _), Lists.dropWhile_run valid.name (hafter _),
    dropComma_append valid.afterName, Option.bind_some, hkeyword, hdrop,
    dropComma_append valid.afterKeyword, Option.map_some]
  simp [valid.name_ne_nil]

/-- What is read as a header is spelled by a heading. -/
theorem exists_of_read? {content : Text} {header : Header}
    (hread : Header.read? content = some header) :
    ∃ h : Heading, h.Valid ∧ h.name = header.name ∧ content = h.spell ++ header.rest := by
  rw [Header.read?] at hread
  split_ifs at hread with hempty
  obtain ⟨text, hcomma, hread⟩ := Option.bind_eq_some_iff.mp hread
  obtain ⟨after, hkeyword, hread⟩ := Option.bind_eq_some_iff.mp hread
  obtain ⟨rest, hlast, rfl⟩ := Option.map_eq_some_iff.mp hread
  obtain ⟨afterName, hafterName, hname⟩ := exists_of_dropComma hcomma
  obtain ⟨word, hword, htext⟩ := (dropKeyword_eq_some_iff (by decide)).mp hkeyword
  obtain ⟨afterKeyword, hafterKeyword, hafter⟩ := exists_of_dropComma hlast
  let h : Heading :=
    { beforeName := content.takeWhile isBlank
      name := (trimStart content).takeWhile isWordChar
      afterName := afterName
      beforeKeyword := text.takeWhile isBlank
      keyword := word
      afterKeyword := afterKeyword }
  refine ⟨h, ?_, rfl, ?_⟩
  · exact
      { beforeName := fun c hc => List.mem_takeWhile_imp hc
        name_ne_nil := fun hnil => hempty (List.isEmpty_iff.mpr hnil)
        name := fun c hc => List.mem_takeWhile_imp hc
        afterName := hafterName
        beforeKeyword := fun c hc => List.mem_takeWhile_imp hc
        keyword := hword
        afterKeyword := hafterKeyword }
  · calc content = content.takeWhile isBlank ++ trimStart content :=
          List.takeWhile_append_dropWhile.symm
      _ = h.beforeName ++ (h.name ++ (afterName ++ ',' :: text)) := by
          rw [← hname, List.takeWhile_append_dropWhile]
      _ = h.beforeName ++ (h.name ++ (afterName ++ ',' ::
            (h.beforeKeyword ++ trimStart text))) := by
          rw [trimStart, List.takeWhile_append_dropWhile]
      _ = h.spell ++ rest := by
          rw [htext, hafter, spell_append]

/-- A text starts with at most one heading. -/
theorem append_injective {h' : Heading} {rest rest' : Text} (valid : h.Valid) (valid' : h'.Valid)
    (heq : h.spell ++ rest = h'.spell ++ rest') : h = h' ∧ rest = rest' := by
  rw [spell_append, spell_append] at heq
  -- From left to right, each part ends where the next character cannot belong to it.
  obtain ⟨hbeforeName, heq⟩ := Lists.run_inj valid.beforeName
    (startsSolid_of_word valid.name valid.name_ne_nil _) valid'.beforeName
    (startsSolid_of_word valid'.name valid'.name_ne_nil _) heq
  obtain ⟨hname, heq⟩ := Lists.run_inj valid.name (head?_comma _ _ valid.afterName) valid'.name
    (head?_comma _ _ valid'.afterName) heq
  obtain ⟨hafterName, heq⟩ := Lists.run_inj valid.afterName (startsSolid_comma _) valid'.afterName
    (startsSolid_comma _) heq
  obtain ⟨hbeforeKeyword, heq⟩ := Lists.run_inj valid.beforeKeyword
    (startsSolid_keyword valid.keyword _) valid'.beforeKeyword
    (startsSolid_keyword valid'.keyword _) (List.tail_eq_of_cons_eq heq)
  -- Only the keyword has no such end: it has the length of `select` in all spellings.
  have hlength : h.keyword.length = h'.keyword.length := by
    have hl := congrArg List.length (valid.keyword.trans valid'.keyword.symm)
    simpa using hl
  obtain ⟨hkeyword, heq⟩ := List.append_inj heq hlength
  obtain ⟨hafterKeyword, heq⟩ := Lists.run_inj valid.afterKeyword (startsSolid_comma _)
    valid'.afterKeyword (startsSolid_comma _) heq
  refine ⟨?_, List.tail_eq_of_cons_eq heq⟩
  cases h
  cases h'
  simp_all

end Heading

end Pattern

end Phrasebook
