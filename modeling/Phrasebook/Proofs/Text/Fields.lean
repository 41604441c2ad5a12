import Phrasebook.Text.Basic
import Mathlib.Tactic.SplitIfs

/-!
# Fields of texts

A separator cuts a text into fields. Fields are joined again with separators between them, and a
text can also be split at its first separator or at its last one.
-/

namespace Phrasebook.Text

variable {separator : Char} {text field ending before after : Text}

/-! ### Joined texts -/

theorem exists_joinWith_cons (separator first : Text) (names : List Text) :
    ∃ more, joinWith separator (first :: names) = first ++ more := by
  cases names with
  | nil => exact ⟨[], by simp [joinWith, List.intercalate]⟩
  | cons second names =>
    exact ⟨_, by rw [joinWith, List.intercalate_cons_cons, List.append_assoc]⟩

theorem joinWith_concat {steps : List Text} (h : steps ≠ []) (step : Text) :
    joinWith [separator] (steps ++ [step]) = joinWith [separator] steps ++ separator :: step := by
  induction steps with
  | nil => exact absurd rfl h
  | cons first rest ih =>
    cases rest with
    | nil => simp [joinWith]
    | cons second rest =>
      have ih := ih (by simp)
      simp only [joinWith, List.cons_append, List.intercalate_cons_cons] at ih ⊢
      rw [ih]
      simp

theorem not_mem_joinWith {c : Char} {separator : Text} {names : List Text} (hc : c ∉ separator)
    (hnames : ∀ name ∈ names, c ∉ name) : c ∉ joinWith separator names := by
  induction names with
  | nil => exact List.not_mem_nil
  | cons first names ih =>
    obtain ⟨hfirst, hmore⟩ := List.forall_mem_cons.mp hnames
    cases names with
    | nil => simpa [joinWith, List.intercalate] using hfirst
    | cons second names =>
      rw [joinWith, List.intercalate_cons_cons, List.mem_append, List.mem_append, not_or,
        not_or]
      exact ⟨⟨hfirst, hc⟩, ih hmore⟩

/-! ### Fields -/

theorem fields_ne_nil (separator : Char) (text : Text) : fields separator text ≠ [] := by
  cases text with
  | nil => simp [fields]
  | cons c rest =>
    rw [fields]
    split_ifs
    · simp
    · split <;> simp

/-- A character that does not separate belongs to the first field. -/
theorem fields_cons {c : Char} (h : c ≠ separator) (rest : Text) :
    ∃ first others, fields separator rest = first :: others ∧
      fields separator (c :: rest) = (c :: first) :: others := by
  obtain ⟨first, others, hrest⟩ := List.exists_cons_of_ne_nil (fields_ne_nil separator rest)
  refine ⟨first, others, hrest, ?_⟩
  rw [fields, if_neg h, hrest]

/-- A separator between two texts separates their fields. -/
theorem fields_append_cons (separator : Char) (first second : Text) :
    fields separator (first ++ separator :: second) =
      fields separator first ++ fields separator second := by
  induction first with
  | nil => simp [fields]
  | cons c rest ih =>
    by_cases hc : c = separator
    · rw [List.cons_append, fields, fields, if_pos hc, if_pos hc, ih, List.cons_append]
    · obtain ⟨field, others, hrest, hcons⟩ := fields_cons hc rest
      rw [List.cons_append, fields, if_neg hc, ih, hcons, hrest]
      rfl

theorem fields_of_not_mem (h : separator ∉ text) : fields separator text = [text] := by
  induction text with
  | nil => rfl
  | cons c rest ih =>
    rw [List.mem_cons, not_or] at h
    rw [fields, if_neg (Ne.symm h.1), ih h.2]

theorem length_fields (separator : Char) (text : Text) :
    (fields separator text).length = text.count separator + 1 := by
  induction text with
  | nil => rfl
  | cons c rest ih =>
    by_cases hc : c = separator
    · rw [fields, if_pos hc, List.length_cons, ih, hc, List.count_cons_self]
    · obtain ⟨first, others, hrest, hcons⟩ := fields_cons hc rest
      rw [hrest] at ih
      rw [hcons, List.count_cons_of_ne hc, ← ih, List.length_cons, List.length_cons]

/-- Parts with a separator between them are the fields of the joined text. -/
theorem fields_joinWith {parts : List Text} (hne : parts ≠ [])
    (h : ∀ part ∈ parts, separator ∉ part) :
    fields separator (joinWith [separator] parts) = parts := by
  induction parts with
  | nil => exact absurd rfl hne
  | cons first rest ih =>
    obtain ⟨hfirst, hrest⟩ := List.forall_mem_cons.mp h
    cases rest with
    | nil => rw [joinWith, List.intercalate_singleton, fields_of_not_mem hfirst]
    | cons second rest =>
      have ih := ih (by simp) hrest
      rw [joinWith] at ih ⊢
      rw [List.intercalate_cons_cons, List.append_assoc, List.singleton_append, fields_append_cons,
        fields_of_not_mem hfirst, ih, List.singleton_append]

theorem not_mem_of_mem_fields (h : field ∈ fields separator text) : separator ∉ field := by
  induction text generalizing field with
  | nil =>
    rw [fields, List.mem_singleton] at h
    simp [h]
  | cons c rest ih =>
    by_cases hc : c = separator
    · rw [fields, if_pos hc, List.mem_cons] at h
      rcases h with rfl | h
      · simp
      · exact ih h
    · obtain ⟨first, others, hrest, hcons⟩ := fields_cons hc rest
      rw [hcons, List.mem_cons] at h
      rw [hrest] at ih
      rcases h with rfl | h
      · rw [List.mem_cons, not_or]
        exact ⟨Ne.symm hc, ih List.mem_cons_self⟩
      · exact ih (List.mem_cons_of_mem _ h)

/-- What does not separate adds to the last field. -/
theorem exists_fields_append (text : Text) (h : separator ∉ ending) :
    ∃ before last, fields separator text = before ++ [last] ∧
      fields separator (text ++ ending) = before ++ [last ++ ending] := by
  induction text with
  | nil => exact ⟨[], [], rfl, by simp [fields_of_not_mem h]⟩
  | cons c rest ih =>
    obtain ⟨before, last, hrest, happend⟩ := ih
    rw [List.cons_append]
    by_cases hc : c = separator
    · refine ⟨[] :: before, last, ?_, ?_⟩
      · rw [fields, if_pos hc, hrest, List.cons_append]
      · rw [fields, if_pos hc, happend, List.cons_append]
    · rw [fields, fields, if_neg hc, if_neg hc, hrest, happend]
      cases before with
      | nil => exact ⟨[], c :: last, rfl, rfl⟩
      | cons first others => exact ⟨(c :: first) :: others, last, rfl, rfl⟩

/-! ### Splitting once -/

theorem eq_of_splitFirst (h : splitFirst separator text = some (before, after)) :
    text = before ++ separator :: after := by
  induction text generalizing before with
  | nil => simp [splitFirst] at h
  | cons c rest ih =>
    rw [splitFirst] at h
    split_ifs at h with hc
    · obtain ⟨rfl, rfl⟩ := Prod.mk.inj (Option.some.inj h)
      rw [hc, List.nil_append]
    · obtain ⟨⟨start, stop⟩, hrest, hpair⟩ := Option.map_eq_some_iff.mp h
      obtain ⟨rfl, rfl⟩ := Prod.mk.inj hpair
      rw [ih hrest, List.cons_append]

theorem splitFirst_eq_none (h : separator ∉ text) : splitFirst separator text = none := by
  cases hsplit : splitFirst separator text with
  | none => rfl
  | some parts =>
    rw [eq_of_splitFirst hsplit] at h
    simp at h

theorem eq_of_splitLast (h : splitLast separator text = some (before, after)) :
    text = before ++ separator :: after := by
  obtain ⟨⟨stop, start⟩, hfirst, hpair⟩ := Option.map_eq_some_iff.mp h
  obtain ⟨rfl, rfl⟩ := Prod.mk.inj hpair
  have hreverse := congrArg List.reverse (eq_of_splitFirst hfirst)
  simpa using hreverse

theorem splitFirst_append_cons (h : separator ∉ before) (after : Text) :
    splitFirst separator (before ++ separator :: after) = some (before, after) := by
  induction before with
  | nil => simp [splitFirst]
  | cons c rest ih =>
    rw [List.mem_cons, not_or] at h
    rw [List.cons_append, splitFirst, if_neg (Ne.symm h.1), ih h.2]
    rfl

theorem splitLast_append_cons (before : Text) (h : separator ∉ after) :
    splitLast separator (before ++ separator :: after) = some (before, after) := by
  have hreverse : (before ++ separator :: after).reverse =
      after.reverse ++ separator :: before.reverse := by simp
  rw [splitLast, hreverse, splitFirst_append_cons (by simpa using h)]
  simp

end Phrasebook.Text
