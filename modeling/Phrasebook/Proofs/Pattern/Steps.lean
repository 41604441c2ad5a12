import Phrasebook.Proofs.Pattern.Cutting

/-!
# Scans, character by character

A scan goes through a text one character at a time. What a character does to the state of a scan,
and what it makes the scan find, has nothing to do with the text after it.
-/

namespace Phrasebook.Pattern

theorem depth_cons (c : Char) (text : Text) : depth (c :: text) = depth [c] + depth text := by
  rw [← depth_append, List.singleton_append]

theorem depth_pos_iff {c : Char} : 0 < depth [c] ↔ c = '{' := by
  by_cases hopen : c = '{'
  · simp [hopen, depth_opening]
  by_cases hclose : c = '}'
  · simp [hclose, depth_closing]
  · simp [hopen, depth_other hopen hclose]

theorem depth_neg_iff {c : Char} : depth [c] < 0 ↔ c = '}' := by
  by_cases hopen : c = '{'
  · simp [hopen, depth_opening]
  by_cases hclose : c = '}'
  · simp [hclose, depth_closing]
  · simp [hclose, depth_other hopen hclose]

namespace Scan

namespace State

/-- A character opens a group. -/
def Opens (s : State) (c : Char) : Prop := c = '{' ∧ s.depth = 0

/-- A character closes a group. -/
def Closes (s : State) (c : Char) : Prop := c = '}' ∧ s.depth = 1

instance (s : State) (c : Char) : Decidable (s.Opens c) := inferInstanceAs (Decidable (_ ∧ _))

instance (s : State) (c : Char) : Decidable (s.Closes c) := inferInstanceAs (Decidable (_ ∧ _))

/-- The state after a character. A new segment starts where a group opens and after it closes. -/
def next (s : State) (c : Char) : State :=
  let here := s.here + c.utf8Size
  if s.Opens c then { depth := 1, lowest := s.lowest, start := s.here, here }
  else if s.Closes c then { lowest := s.lowest, start := here, here }
  else
    { s with
      depth := s.depth + Pattern.depth [c]
      lowest := if c = '}' then min s.lowest (s.depth - 1) else s.lowest
      here
      held := c :: s.held }

/-- The segments that end with a character or in front of it. -/
def found (s : State) (c : Char) : List Segment :=
  if s.Opens c then s.literal
  else if s.Closes c then [.group s.held.reverse ⟨s.start, s.here + c.utf8Size⟩]
  else []

/-- The place of a character, if it is a stray closing brace. -/
def stray (s : State) (c : Char) : List Nat :=
  if c = '}' ∧ s.depth ≠ 1 ∧ s.depth - 1 < s.lowest then [s.here] else []

end State

/-- A scan takes one step and goes on with the rest of its text. -/
theorem run_cons (s : State) (c : Char) (rest : Text) :
    run s (c :: rest) =
      { segments := s.found c ++ (run (s.next c) rest).segments
        unterminated := (run (s.next c) rest).unterminated
        strays := s.stray c ++ (run (s.next c) rest).strays } := by
  by_cases hopen : c = '{'
  · subst hopen
    by_cases hzero : s.depth = 0
    · simp [run, State.next, State.found, State.stray, State.Opens, hzero, withSegments]
    · simp [run, State.next, State.found, State.stray, State.Opens, State.Closes, hzero,
        depth_opening]
  by_cases hclose : c = '}'
  · subst hclose
    by_cases hone : s.depth = 1
    · simp [run, State.next, State.found, State.stray, State.Opens, State.Closes, hone,
        withSegments]
    · have hdepth : s.depth + Pattern.depth ['}'] = s.depth - 1 := by
        rw [depth_closing]
        omega
      have hne : s.depth - 1 ≠ 0 := by omega
      by_cases hstray : s.depth - 1 < s.lowest
      · have hmin : min s.lowest (s.depth - 1) = s.depth - 1 := by omega
        simp [run, State.next, State.found, State.stray, State.Opens, State.Closes, hone, hne,
          hstray, hdepth, hmin, withStray]
      · have hmin : min s.lowest (s.depth - 1) = s.lowest := by omega
        simp [run, State.next, State.found, State.stray, State.Opens, State.Closes, hone, hne,
          hstray, hdepth, hmin]
  · simp [run, State.next, State.found, State.stray, State.Opens, State.Closes, hopen, hclose,
      depth_other hopen hclose]

namespace State

/-! ### What a step does -/

/-- The depth counts braces. -/
@[simp] theorem depth_next (s : State) (c : Char) :
    (s.next c).depth = s.depth + Pattern.depth [c] := by
  by_cases hopen : s.Opens c
  · obtain ⟨rfl, hzero⟩ := hopen
    simp [next, Opens, hzero, depth_opening]
  by_cases hclose : s.Closes c
  · obtain ⟨rfl, hone⟩ := hclose
    simp [next, Opens, Closes, hone, depth_closing]
  · simp only [next, if_neg hopen, if_neg hclose]

@[simp] theorem here_next (s : State) (c : Char) : (s.next c).here = s.here + c.utf8Size := by
  by_cases hopen : s.Opens c
  · simp only [next, if_pos hopen]
  by_cases hclose : s.Closes c
  · simp only [next, if_neg hopen, if_pos hclose]
  · simp only [next, if_neg hopen, if_neg hclose]

/-- A character that opens a group ends a literal. -/
theorem Opens.step {s : State} {c : Char} (h : s.Opens c) :
    s.found c = s.literal ∧ (s.next c).start = s.here ∧ (s.next c).held = [] := by
  simp only [found, next, if_pos h, and_self]

/-- A character that closes a group ends it. -/
theorem Closes.step {s : State} {c : Char} (h : s.Closes c) :
    s.found c = [.group s.held.reverse ⟨s.start, s.here + c.utf8Size⟩] ∧
      (s.next c).held = [] := by
  have hopen : ¬ s.Opens c := fun hopen => by
    have hdepth := hopen.2
    rw [h.2] at hdepth
    omega
  simp only [found, next, if_neg hopen, if_pos h, and_self]

/-- Any other character is held, and it leads neither into a group nor out of one. -/
theorem step_of_neither {s : State} {c : Char} (hopen : ¬ s.Opens c) (hclose : ¬ s.Closes c) :
    s.found c = [] ∧ (s.next c).start = s.start ∧ (s.next c).held = c :: s.held ∧
      (0 < (s.next c).depth ↔ 0 < s.depth) := by
  refine ⟨by simp only [found, if_neg hopen, if_neg hclose],
    by simp only [next, if_neg hopen, if_neg hclose],
    by simp only [next, if_neg hopen, if_neg hclose], ?_⟩
  rw [depth_next]
  by_cases hc : c = '{'
  · subst hc
    have hne : s.depth ≠ 0 := fun hzero => hopen ⟨rfl, hzero⟩
    rw [depth_opening]
    omega
  by_cases hc' : c = '}'
  · subst hc'
    have hne : s.depth ≠ 1 := fun hone => hclose ⟨rfl, hone⟩
    rw [depth_closing]
    omega
  · rw [depth_other hc hc', Int.add_zero]

/-- A group that is open after a character was opened by it or has been open before. -/
theorem start_next {s : State} {c : Char} (h : 0 < (s.next c).depth) :
    (s.Opens c ∧ (s.next c).start = s.here) ∨ (0 < s.depth ∧ (s.next c).start = s.start) := by
  by_cases hopen : s.Opens c
  · exact .inl ⟨hopen, hopen.step.2.1⟩
  by_cases hclose : s.Closes c
  · rw [depth_next, hclose.2, hclose.1, depth_closing] at h
    omega
  · obtain ⟨-, hstart, -, hside⟩ := step_of_neither hopen hclose
    exact .inr ⟨hside.mp h, hstart⟩

/-- The least depth is not above zero, where a scan starts, and not above the current depth. -/
structure Bounded (s : State) : Prop where
  nonpos : s.lowest ≤ 0
  le_depth : s.lowest ≤ s.depth

namespace Bounded

theorem start : Bounded {} := ⟨Int.le_refl 0, Int.le_refl 0⟩

variable {s : State} (h : s.Bounded) (c : Char)

include h

/-- The least depth follows the depth. -/
theorem lowest_next : (s.next c).lowest = min s.lowest (s.next c).depth := by
  have hnonpos := h.nonpos
  have hle := h.le_depth
  rw [depth_next]
  by_cases hopen : s.Opens c
  · obtain ⟨rfl, hzero⟩ := hopen
    simp only [next, if_pos (show s.Opens '{' from ⟨rfl, hzero⟩), depth_opening]
    omega
  by_cases hclose : s.Closes c
  · obtain ⟨rfl, hone⟩ := hclose
    simp only [next, if_neg hopen, if_pos (show s.Closes '}' from ⟨rfl, hone⟩), depth_closing]
    omega
  · simp only [next, if_neg hopen, if_neg hclose]
    split_ifs with hc
    · rw [hc, depth_closing]
      rfl
    · have hrises : ¬ Pattern.depth [c] < 0 := fun hsinks => hc (depth_neg_iff.mp hsinks)
      omega

theorem next : (s.next c).Bounded := by
  have hlowest := h.lowest_next c
  have hnonpos := h.nonpos
  constructor <;> omega

/-- A stray brace is one that leads below the least depth. -/
theorem stray_eq : s.stray c = if (s.next c).depth < s.lowest then [s.here] else [] := by
  have hnonpos := h.nonpos
  have hle := h.le_depth
  rw [stray]
  refine if_congr ?_ rfl rfl
  rw [depth_next]
  constructor
  · rintro ⟨rfl, -, hlow⟩
    rwa [depth_closing]
  · intro hlow
    have hsinks : Pattern.depth [c] < 0 := by omega
    obtain rfl := depth_neg_iff.mp hsinks
    rw [depth_closing] at hlow
    exact ⟨rfl, by omega, hlow⟩

end Bounded

end State

end Scan

end Phrasebook.Pattern
