import Phrasebook.Text.LowerCase
import Mathlib.Data.List.Basic
import Mathlib.Tactic.ByContra
import Mathlib.Tactic.SplitIfs

/-!
# Lower case twice

A text in lower case stays as it is when it is put into lower case again. The table of runs decides
this: no code point of a run moves to one that moves on. Two runs are compared by their ends, or by
parity where the code points of one fall between those of the other.
-/

namespace Phrasebook.Text

namespace CaseRun

variable {run other : CaseRun} {n m : Nat}

/-- A code point belongs to a run. -/
def Has (run : CaseRun) (n : Nat) : Prop :=
  run.first ≤ n ∧ n ≤ run.last ∧ (n - run.first) % run.step = 0

/-- Whether the code points of a run move past those of another one: they lie before it, behind it,
or between its code points. -/
def avoids (run other : CaseRun) : Bool :=
  Nat.blt (run.last + run.distance).toNat other.first ||
    Nat.blt other.last (run.first + run.distance).toNat ||
    ((run.first == run.last || run.step % 2 == 0) && other.step % 2 == 0 &&
      (run.first + run.distance - other.first) % 2 == 1)

/-- The code points of a run have the parity of the first one, if they are alone or two apart. -/
theorem Has.even (h : run.Has n) (hrun : run.first = run.last ∨ run.step % 2 = 0) :
    (n - run.first) % 2 = 0 := by
  obtain ⟨hfirst, hlast, hstep⟩ := h
  rcases hrun with hsingle | heven
  · omega
  · exact Nat.mod_eq_zero_of_dvd
      (Nat.dvd_trans (Nat.dvd_of_mod_eq_zero heven) (Nat.dvd_of_mod_eq_zero hstep))

theorem Has.not_has_of_avoids (h : run.Has n) (hm : (m : Int) = n + run.distance)
    (havoids : run.avoids other = true) : ¬ other.Has m := by
  intro hother
  simp only [avoids, Bool.or_eq_true, Bool.and_eq_true, Nat.blt_eq, beq_iff_eq] at havoids
  have ⟨hfirst, hlast, _⟩ := h
  have ⟨hfirst', hlast', _⟩ := hother
  rcases havoids with (hbefore | hbehind) | ⟨⟨hrun, hstep⟩, hodd⟩
  · omega
  · omega
  · have heven := h.even hrun
    have heven' := hother.even (.inr hstep)
    omega

end CaseRun

variable {c d : Char} {text before : Text}

/-! ### Characters -/

/-- A character stays as it is or moves by the distance of its run. What is no code point becomes
the null character. -/
theorem lowerChar_cases (c : Char) :
    lowerChar c = c ∨ lowerChar c = '\x00' ∨
      ∃ run ∈ lowerCaseRuns, run.Has c.toNat ∧
        ((lowerChar c).toNat : Int) = c.toNat + run.distance := by
  rw [lowerChar]
  split
  · rename_i run hfind
    have hmem := List.mem_of_find?_eq_some hfind
    have hhas := List.find?_some hfind
    simp only [Bool.and_eq_true, decide_eq_true_eq, beq_iff_eq] at hhas
    by_cases hzero : (Char.ofNat (c.toNat + run.distance).toNat).toNat = 0
    · exact .inr (.inl (Char.toNat_inj.mp hzero))
    · refine .inr (.inr ⟨run, hmem, ⟨hhas.1.1, hhas.1.2, hhas.2⟩, ?_⟩)
      by_cases hvalid : (c.toNat + run.distance).toNat.isValidChar
      · have hcode : (Char.ofNat (c.toNat + run.distance).toNat).toNat =
            (c.toNat + run.distance).toNat := congrArg Char.toNat (dif_pos hvalid)
        omega
      · exact absurd (congrArg Char.toNat (dif_neg hvalid)) hzero
  · exact .inl rfl

theorem lowerChar_of_forall_not_has (h : ∀ run ∈ lowerCaseRuns, ¬ run.Has c.toNat) :
    lowerChar c = c := by
  rw [lowerChar]
  split
  · rename_i run hfind
    have hhas := List.find?_some hfind
    simp only [Bool.and_eq_true, decide_eq_true_eq, beq_iff_eq] at hhas
    exact absurd ⟨hhas.1.1, hhas.1.2, hhas.2⟩ (h run (List.mem_of_find?_eq_some hfind))
  · rfl

/-- A character that moves goes past all code points that every run avoids. -/
theorem not_has_lowerChar {target : CaseRun} (htarget : 0 < target.first)
    (h : ∀ run ∈ lowerCaseRuns, run.avoids target = true) (hmoves : lowerChar c ≠ c) :
    ¬ target.Has (lowerChar c).toNat := by
  rcases lowerChar_cases c with hsame | hzero | ⟨run, hrun, hhas, hdistance⟩
  · exact absurd hsame hmoves
  · rw [hzero]
    exact fun hhas => absurd hhas.1 (Nat.not_le.mpr htarget)
  · exact hhas.not_has_of_avoids hdistance (h run hrun)

/-- Every run avoids all of them, itself included. -/
theorem all_avoids_lowerCaseRuns :
    ∀ run ∈ lowerCaseRuns, lowerCaseRuns.all run.avoids = true := by
  decide +kernel

/-- No character moves twice. -/
theorem lowerChar_lowerChar (c : Char) : lowerChar (lowerChar c) = lowerChar c := by
  by_cases hmoves : lowerChar c = c
  · rw [hmoves, hmoves]
  · refine lowerChar_of_forall_not_has fun target htarget => not_has_lowerChar ?_ ?_ hmoves
    · have hfirst : ∀ target ∈ lowerCaseRuns, 0 < target.first := by decide +kernel
      exact hfirst target htarget
    · exact fun run hrun => List.all_eq_true.mp (all_avoids_lowerCaseRuns run hrun) target htarget

/-- Other characters do not become a capital I with a dot or a slash. -/
theorem lowerChar_ne (hd : d = 'İ' ∨ d = '/') (hne : c ≠ d) : lowerChar c ≠ d := by
  intro hsame
  have havoids : 0 < d.toNat ∧ ∀ run ∈ lowerCaseRuns,
      run.avoids ⟨d.toNat, d.toNat, 1, 0⟩ = true := by
    rcases hd with rfl | rfl <;> decide +kernel
  have hmoves : lowerChar c ≠ c := fun h => hne (h.symm.trans hsame)
  refine not_has_lowerChar havoids.1 havoids.2 hmoves ?_
  rw [hsame]
  exact ⟨Nat.le_refl _, Nat.le_refl _, Nat.mod_one _⟩

/-! ### Texts -/

/-- A character stays as it is in lower case, wherever it stands. -/
def IsLower (c : Char) : Prop := c ≠ 'Σ' ∧ c ≠ 'İ' ∧ lowerChar c = c

instance : DecidablePred IsLower := fun _ => inferInstanceAs (Decidable (_ ∧ _))

theorem isLower_lowerChar (hc : c ≠ 'İ') : IsLower (lowerChar c) := by
  refine ⟨fun hsigma => ?_, lowerChar_ne (.inl rfl) hc, lowerChar_lowerChar c⟩
  -- A capital sigma moves when it is alone, so no character has moved to it.
  have hagain := lowerChar_lowerChar c
  rw [hsigma] at hagain
  exact absurd hagain (by decide +kernel)

/-- What a character becomes is in lower case, and has a slash only if it is one. -/
theorem lowered_cases {first rest : Text}
    (h : d ∈ (if c = 'Σ' then if startsCased first && !startsCased rest then ['ς'] else ['σ']
      else if c = 'İ' then ['i', '\u0307'] else [lowerChar c] : Text)) :
    IsLower d ∧ (d = '/' → c = '/') := by
  have hlower : ∀ d ∈ ['ς', 'σ', 'i', '\u0307'], IsLower d := by
    have hletters : IsLower 'ς' ∧ IsLower 'σ' ∧ IsLower 'i' ∧ IsLower '\u0307' := by decide +kernel
    simpa using hletters
  have hslash : '/' ∉ ['ς', 'σ', 'i', '\u0307'] := by decide
  have hletter (hd : d ∈ ['ς', 'σ', 'i', '\u0307']) : IsLower d ∧ (d = '/' → c = '/') :=
    ⟨hlower d hd, fun heq => absurd (heq ▸ hd) hslash⟩
  split_ifs at h with hc hend hdotted
  · exact hletter (by simp [List.mem_singleton.mp h])
  · exact hletter (by simp [List.mem_singleton.mp h])
  · refine hletter ?_
    rcases List.mem_pair.mp h with rfl | rfl <;> simp
  · obtain rfl := List.mem_singleton.mp h
    refine ⟨isLower_lowerChar hdotted, fun heq => ?_⟩
    by_contra hne
    exact lowerChar_ne (.inr rfl) hne heq

theorem of_mem_lowerAfter (h : d ∈ lowerAfter before text) :
    IsLower d ∧ (d = '/' → '/' ∈ text) := by
  induction text generalizing before with
  | nil => exact absurd h List.not_mem_nil
  | cons c rest ih =>
    rw [lowerAfter] at h
    rcases List.mem_append.mp h with h | h
    · obtain ⟨hlower, hslash⟩ := lowered_cases h
      exact ⟨hlower, fun heq => List.mem_cons.mpr (.inl (hslash heq).symm)⟩
    · obtain ⟨hlower, hslash⟩ := ih h
      exact ⟨hlower, fun heq => List.mem_cons_of_mem c (hslash heq)⟩

theorem lowerAfter_of_isLower (h : ∀ c ∈ text, IsLower c) : lowerAfter before text = text := by
  induction text generalizing before with
  | nil => rfl
  | cons c rest ih =>
    obtain ⟨⟨hsigma, hdotted, hsame⟩, hrest⟩ := List.forall_mem_cons.mp h
    rw [lowerAfter, ih hrest]
    simp only [if_neg hsigma, if_neg hdotted, hsame, List.singleton_append]

/-- A text in lower case is its own lower-case form. -/
theorem lower_lower (text : Text) : lower (lower text) = lower text :=
  lowerAfter_of_isLower fun _ h => (of_mem_lowerAfter h).1

/-- Slashes do not come from other characters. -/
theorem slash_not_mem_lower (h : '/' ∉ text) : '/' ∉ lower text :=
  fun hslash => h ((of_mem_lowerAfter hslash).2 rfl)

end Phrasebook.Text
