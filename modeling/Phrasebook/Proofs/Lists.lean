import Mathlib.Data.List.Forall2

/-!
# Facts about lists

What the other modules need to know about lists of any kind: how a list is cut after its longest
run, how lists are related member by member, and how repetitions are taken out.
-/

namespace Phrasebook.Lists

variable {α β γ : Type}

/-! ### Runs -/

section Runs

variable {p : α → Bool} {run rest : List α}

theorem takeWhile_run (hrun : ∀ a ∈ run, p a = true) (hrest : ∀ a ∈ rest.head?, p a = false) :
    (run ++ rest).takeWhile p = run := by
  rw [List.takeWhile_append_of_pos hrun]
  cases rest with
  | nil => simp
  | cons a rest => simp [hrest a (by simp)]

theorem dropWhile_run (hrun : ∀ a ∈ run, p a = true) (hrest : ∀ a ∈ rest.head?, p a = false) :
    (run ++ rest).dropWhile p = rest := by
  rw [List.dropWhile_append_of_pos hrun]
  cases rest with
  | nil => simp
  | cons a rest => simp [hrest a (by simp)]

/-- There is only one way to cut off the longest run of members with a property. -/
theorem run_inj {run' rest' : List α} (hrun : ∀ a ∈ run, p a = true)
    (hrest : ∀ a ∈ rest.head?, p a = false) (hrun' : ∀ a ∈ run', p a = true)
    (hrest' : ∀ a ∈ rest'.head?, p a = false) (h : run ++ rest = run' ++ rest') :
    run = run' ∧ rest = rest' := by
  constructor
  · rw [← takeWhile_run hrun hrest, h, takeWhile_run hrun' hrest']
  · rw [← dropWhile_run hrun hrest, h, dropWhile_run hrun' hrest']

end Runs

/-! ### Members -/

/-- Lists that are related member by member agree on what related members share. -/
theorem map_eq_map_of_forall₂ {R : α → β → Prop} {f : α → γ} {g : β → γ} {l : List α}
    {m : List β} (h : List.Forall₂ R l m) (hR : ∀ a b, R a b → f a = g b) : l.map f = m.map g := by
  induction h with
  | nil => rfl
  | cons hhead _ ih => rw [List.map_cons, List.map_cons, hR _ _ hhead, ih]

/-- Each member of one list is related to a member of the other. -/
theorem exists_of_forall₂ {R : α → β → Prop} {l : List α} {m : List β} (h : List.Forall₂ R l m)
    {b : β} (hb : b ∈ m) : ∃ a ∈ l, R a b := by
  induction h with
  | nil => simp at hb
  | cons hhead _ ih =>
    rcases List.mem_cons.mp hb with rfl | hb
    · exact ⟨_, List.mem_cons_self, hhead⟩
    · obtain ⟨a, ha, hrel⟩ := ih hb
      exact ⟨a, List.mem_cons_of_mem _ ha, hrel⟩

/-- A list is an image if each of its members is. -/
theorem exists_map_eq {f : β → α} {P : β → Prop} {l : List α} (h : ∀ a ∈ l, ∃ b, P b ∧ f b = a) :
    ∃ m : List β, (∀ b ∈ m, P b) ∧ m.map f = l := by
  induction l with
  | nil => exact ⟨[], by simp, rfl⟩
  | cons a l ih =>
    obtain ⟨b, hb, rfl⟩ := h a List.mem_cons_self
    obtain ⟨m, hm, rfl⟩ := ih fun a ha => h a (List.mem_cons_of_mem _ ha)
    exact ⟨b :: m, List.forall_mem_cons.mpr ⟨hb, hm⟩, rfl⟩

/-- A step that succeeds on each member of a list succeeds on the list. -/
theorem mapM_of_forall {f : α → Option β} {g : α → β} {l : List α}
    (h : ∀ a ∈ l, f a = some (g a)) : l.mapM f = some (l.map g) := by
  induction l with
  | nil => rfl
  | cons first rest ih =>
    obtain ⟨hfirst, hrest⟩ := List.forall_mem_cons.mp h
    simp [List.mapM_cons, hfirst, ih hrest]

/-! ### Repetitions -/

section Repetitions

variable [BEq α]

theorem isEmpty_eraseDups (l : List α) : l.eraseDups.isEmpty = l.isEmpty := by
  cases l with
  | nil => rfl
  | cons a l => rw [List.eraseDups_cons, List.isEmpty_cons, List.isEmpty_cons]

variable [LawfulBEq α]

theorem eraseDups_of_nodup {l : List α} (h : l.Nodup) : l.eraseDups = l := by
  induction l with
  | nil => rfl
  | cons a l ih =>
    obtain ⟨ha, hl⟩ := List.nodup_cons.mp h
    have hfilter : l.filter (fun b => !b == a) = l := by
      rw [List.filter_eq_self]
      intro b hb
      simpa using fun hsame : b = a => ha (hsame ▸ hb)
    rw [List.eraseDups_cons, hfilter, ih hl]

theorem eraseDups_filter (p : α → Bool) (l : List α) :
    (l.filter p).eraseDups = l.eraseDups.filter p := by
  induction l generalizing p with
  | nil => rfl
  | cons a l ih =>
    rw [List.eraseDups_cons, ih fun b => !b == a]
    by_cases ha : p a = true
    · rw [List.filter_cons_of_pos ha, List.filter_cons_of_pos ha, List.eraseDups_cons,
        List.filter_filter, List.filter_filter, ih]
      simp only [Bool.and_comm]
    · rw [List.filter_cons_of_neg ha, List.filter_cons_of_neg ha, List.filter_filter, ih]
      refine List.filter_congr fun b _ => ?_
      by_cases hb : b = a
      · simp [hb, ha]
      · simp [hb]

end Repetitions

end Phrasebook.Lists
