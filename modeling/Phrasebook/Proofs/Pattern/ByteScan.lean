import Phrasebook.Proofs.Pattern.Steps
import Phrasebook.Proofs.Text.Bytes

/-!
# Scans by bytes

A scan can go through the bytes of a text instead of its characters. It then cuts its segments out
of the text by offsets, which has no result if an offset lies inside of a character, and it counts
its depth in a number of bounded size. Braces are ASCII characters, and their bytes occur in no
other character, so none of this ever fails, and both ways to scan find the same.
-/

namespace Phrasebook

namespace Pattern.Scan

open Text

/-- The state of a scan between two bytes. -/
structure Cursor where
  /-- Opening braces minus closing braces so far. -/
  depth : Int := 0
  /-- The least depth so far. -/
  lowest : Int := 0
  /-- Where the current segment starts. -/
  start : Nat := 0
  /-- Where the next byte stands. -/
  here : Nat := 0

/-- A depth, unless it is too far from zero. -/
def depth? (limit : Nat) (depth : Int) : Option Int :=
  if depth.natAbs ≤ limit then some depth else none

/-- The literal between two offsets, if there is anything between them. -/
def literal? (source : Text) (start stop : Nat) : Option (List Segment) := do
  if start < stop then
    let text ← Span.slice? ⟨start, stop⟩ source
    return [.literal text (.ofRange start stop)]
  else
    return []

/-- The group between the offsets of its braces. -/
def group? (source : Text) (start stop : Nat) : Option (List Segment) := do
  let content ← Span.slice? ⟨start + 1, stop⟩ source
  return [.group content (.ofRange start (stop + 1))]

/-- The scan of the rest of the bytes of a text. There is none if a cut is not between characters or
the depth passes the limit. -/
def runBytes? (limit : Nat) (source : Text) (s : Cursor) : List UInt8 → Option Scan
  | [] => do
    if 0 < s.depth then
      return { unterminated := some (.ofRange s.start (width source)) }
    else
      let segments ← literal? source s.start (width source)
      return { segments }
  | byte :: rest => do
    if byte = '{'.toUInt8 then
      let depth ← depth? limit (s.depth + 1)
      if s.depth = 0 then
        let segments ← literal? source s.start s.here
        let scan ← runBytes? limit source { s with depth, start := s.here, here := s.here + 1 } rest
        return scan.withSegments segments
      else
        runBytes? limit source { s with depth, here := s.here + 1 } rest
    else if byte = '}'.toUInt8 then
      let depth ← depth? limit (s.depth - 1)
      if depth = 0 then
        let segments ← group? source s.start s.here
        let scan ←
          runBytes? limit source { s with depth, start := s.here + 1, here := s.here + 1 } rest
        return scan.withSegments segments
      else if depth < s.lowest then
        let scan ←
          runBytes? limit source { s with depth, lowest := depth, here := s.here + 1 } rest
        return scan.withStray (s.here % Span.offsetRange)
      else
        runBytes? limit source { s with depth, here := s.here + 1 } rest
    else
      runBytes? limit source { s with here := s.here + 1 } rest

/-- The scan of the bytes of a text. -/
def ofBytes? (limit : Nat) (text : Text) : Option Scan := runBytes? limit text {} text.bytes

/-- Bytes other than those of braces are passed over. -/
theorem runBytes?_append {front : List UInt8}
    (h : ∀ byte ∈ front, byte ≠ '{'.toUInt8 ∧ byte ≠ '}'.toUInt8) (limit : Nat) (source : Text)
    (s : Cursor) (rest : List UInt8) :
    runBytes? limit source s (front ++ rest) =
      runBytes? limit source { s with here := s.here + front.length } rest := by
  induction front generalizing s with
  | nil => rfl
  | cons byte front ih =>
    obtain ⟨hbyte, hfront⟩ := List.forall_mem_cons.mp h
    rw [List.cons_append, runBytes?, if_neg hbyte.1, if_neg hbyte.2, ih hfront, List.length_cons,
      Nat.add_assoc s.here, Nat.add_comm 1]

/-- The bytes of a character other than a brace are not those of a brace. -/
theorem ne_of_mem_utf8EncodeChar {c : Char} (hopen : c ≠ '{') (hclose : c ≠ '}') :
    ∀ byte ∈ String.utf8EncodeChar c, byte ≠ '{'.toUInt8 ∧ byte ≠ '}'.toUInt8 := by
  intro byte hbyte
  constructor
  · rintro rfl
    exact not_mem_utf8EncodeChar (by decide) hopen hbyte
  · rintro rfl
    exact not_mem_utf8EncodeChar (by decide) hclose hbyte

/-! ### Where a scan has come to -/

namespace State

/-- The offsets and depths of a state. -/
def cursor (s : State) : Cursor := ⟨s.depth, s.lowest, s.start, s.here⟩

/-- A scan of a text has come to a place with a given rest of the text: it holds what stands in
front of that place, from the start of the current segment on. -/
structure Reads (s : State) (source rest : Text) : Prop where
  holds : s.Holds
  stands : ∃ before, source = before ++ (s.pending ++ rest) ∧ width before = s.start
  depth_le : s.depth.natAbs ≤ s.here

/-- A character changes the depth by one at most. -/
theorem natAbs_depth_le (c : Char) : (Pattern.depth [c]).natAbs ≤ c.utf8Size := by
  have hsize := c.utf8Size_pos
  by_cases hopen : c = '{'
  · rw [hopen, depth_opening]
    exact Nat.le_refl 1
  by_cases hclose : c = '}'
  · rw [hclose, depth_closing]
    exact Nat.le_refl 1
  · rw [depth_other hopen hclose]
    omega

namespace Reads

variable {s : State} {source rest : Text}

theorem start (source : Text) : Reads {} source source :=
  ⟨holds_outside 0 0, ⟨[], rfl, rfl⟩, Nat.le_refl 0⟩

theorem width_eq (h : s.Reads source rest) : width source = s.here + width rest := by
  obtain ⟨before, rfl, hbefore⟩ := h.stands
  rw [width_append, width_append, hbefore, h.holds.here, Nat.add_assoc]

/-- The depth is never farther from zero than the text is long. -/
theorem depth?_eq {limit : Nat} (h : s.Reads source rest) (hsource : width source ≤ limit) :
    depth? limit s.depth = some s.depth := by
  have hdepth := h.depth_le
  have hwidth := h.width_eq
  exact if_pos (by omega)

/-- A character that neither opens nor closes a segment is held. -/
theorem keep {next : State} {c : Char} (h : s.Reads source (c :: rest)) (step : s.Keeps next c) :
    next.Reads source rest := by
  refine ⟨step.holds h.holds, ?_, ?_⟩
  · rw [step.pending, step.start]
    exact h.stands
  · have hdepth := h.depth_le
    have hchange := natAbs_depth_le c
    rw [step.depth, step.here]
    omega

/-- An opening brace outside of all groups starts a group. -/
theorem enter (h : s.Reads source ('{' :: rest)) :
    Reads { depth := 1, lowest := s.lowest, start := s.here, here := s.here + '{'.utf8Size }
      source rest := by
  obtain ⟨before, rfl, hbefore⟩ := h.stands
  refine ⟨holds_inside s.lowest s.here, ⟨before ++ s.pending, ?_, ?_⟩, ?_⟩
  · simp [pending]
  · rw [width_append, hbefore, h.holds.here]
  · exact Nat.le_add_left 1 s.here

/-- The brace that closes a group ends it. -/
theorem leave (h : s.Reads source ('}' :: rest)) :
    Reads { lowest := s.lowest, start := s.here + '}'.utf8Size, here := s.here + '}'.utf8Size }
      source rest := by
  obtain ⟨before, rfl, hbefore⟩ := h.stands
  refine ⟨holds_outside s.lowest _, ⟨before ++ s.pending ++ ['}'], ?_, ?_⟩, Nat.zero_le _⟩
  · simp [pending]
  · rw [width_append, width_append, hbefore, ← h.holds.here]
    rfl

/-! ### Cuts between characters -/

/-- What is held outside of all groups is cut out of the text. -/
theorem literal?_eq (h : s.Reads source rest) (hdepth : s.depth ≤ 0)
    (hrange : s.here < Span.offsetRange) : literal? source s.start s.here = some s.literal := by
  obtain ⟨before, rfl, hbefore⟩ := h.stands
  have hhere := h.holds.here
  rw [pending_outside hdepth] at hhere ⊢
  by_cases hheld : s.held = []
  · have hstart : ¬ s.start < s.here := by
      rw [hheld, List.reverse_nil, width_nil] at hhere
      omega
    rw [literal?, if_neg hstart, State.literal, hheld]
    rfl
  · have hstart : s.start < s.here := by
      have hwidth : width s.held.reverse ≠ 0 := fun hzero =>
        hheld (List.reverse_eq_nil_iff.mp (eq_nil_of_width_eq_zero hzero))
      omega
    have hslice : Span.slice? ⟨s.start, s.here⟩ (before ++ (s.held.reverse ++ rest)) =
        some s.held.reverse := by
      rw [hhere, ← hbefore]
      exact Span.slice?_append before s.held.reverse rest
    rw [literal?, if_pos hstart, hslice, Span.ofRange_eq (Nat.le_of_lt hstart) hrange,
      State.literal, if_neg (by simpa using hheld)]
    rfl

/-- What is held inside of a group is cut out of the text. -/
theorem group?_eq (h : s.Reads source rest) (hdepth : 0 < s.depth)
    (hrange : s.here + 1 < Span.offsetRange) :
    group? source s.start s.here = some [.group s.held.reverse ⟨s.start, s.here + 1⟩] := by
  obtain ⟨before, rfl, hbefore⟩ := h.stands
  have hopen : '{'.utf8Size = 1 := rfl
  have hhere := h.holds.here
  rw [pending_inside hdepth, width_cons, hopen] at hhere
  rw [pending_inside hdepth]
  have hslice : Span.slice? ⟨s.start + 1, s.here⟩ (before ++ ('{' :: s.held.reverse ++ rest)) =
      some s.held.reverse := by
    have hparts := Span.slice?_append (before ++ ['{']) s.held.reverse rest
    have hfront : width (before ++ ['{']) = s.start + 1 := by
      rw [width_append, hbefore]
      rfl
    rw [hfront, Nat.add_assoc, ← hhere] at hparts
    simpa using hparts
  rw [group?, hslice, Span.ofRange_eq (by omega) hrange]
  rfl

/-! ### Both ways to scan -/

/-- From any state on, the scan of the bytes that are left finds what the scan of the characters
that are left finds. -/
theorem runBytes?_eq {limit : Nat} (hlimit : limit < Span.offsetRange)
    (hsource : width source ≤ limit) (h : s.Reads source rest) :
    runBytes? limit source s.cursor rest.bytes = some (run s rest) := by
  have hopening : String.utf8EncodeChar '{' = ['{'.toUInt8] := rfl
  have hclosing : String.utf8EncodeChar '}' = ['}'.toUInt8] := rfl
  have hbrace : '{'.utf8Size = 1 ∧ '}'.utf8Size = 1 := ⟨rfl, rfl⟩
  have hne : '}'.toUInt8 ≠ '{'.toUInt8 := by decide
  have hwidth := h.width_eq
  -- Each brace is one byte, and the bytes of any other character are passed over.
  fun_induction run s rest with
  | case1 s hdepth =>
    have hhere := h.holds.here
    rw [width_nil, Nat.add_zero] at hwidth
    have hrange : Span.ofRange s.start s.here = ⟨s.start, s.here⟩ :=
      Span.ofRange_eq (by omega) (by omega)
    simp only [bytes_nil, runBytes?, cursor, if_pos hdepth, hwidth, hrange]
    rfl
  | case2 s hdepth =>
    rw [width_nil, Nat.add_zero] at hwidth
    simp only [bytes_nil, runBytes?, cursor, if_neg hdepth, hwidth,
      h.literal?_eq (by omega) (by omega)]
    rfl
  | case3 s rest hdepth next ih =>
    have hrest := ih h.enter h.enter.width_eq
    have hliteral := h.literal?_eq (by omega) (by omega)
    have hdeep : depth? limit (0 + 1) = some 1 := h.enter.depth?_eq hsource
    simp only [bytes_cons, hopening, List.singleton_append, runBytes?, cursor, if_true, hdepth,
      hdeep, hliteral, Option.bind_eq_bind, Option.bind_some]
    exact congrArg (Option.bind · fun scan => some (scan.withSegments s.literal)) hrest
  | case4 s rest hdepth next ih =>
    have step : s.Keeps { s with depth := s.depth + 1, here := next, held := '{' :: s.held } '{' :=
      ⟨rfl, rfl, rfl, rfl, by dsimp only; omega⟩
    have hrest := ih (h.keep step) (h.keep step).width_eq
    have hdeep : depth? limit (s.depth + 1) = some (s.depth + 1) := (h.keep step).depth?_eq hsource
    simp only [bytes_cons, hopening, List.singleton_append, runBytes?, cursor, if_true, hdepth,
      hdeep, if_false, Option.bind_eq_bind, Option.bind_some]
    exact hrest
  | case5 s rest depth hzero next hopen ih =>
    have hrest := ih h.leave h.leave.width_eq
    have hgroup := h.group?_eq (by omega) (by rw [width_cons] at hwidth; omega)
    have hdeep : depth? limit (s.depth - 1) = some 0 := hzero ▸ h.leave.depth?_eq hsource
    simp only [bytes_cons, hclosing, List.singleton_append, runBytes?, cursor, if_neg hne, if_true,
      hdeep, hgroup, Option.bind_eq_bind, Option.bind_some]
    exact congrArg (Option.bind · fun scan =>
      some (scan.withSegments [.group s.held.reverse ⟨s.start, next⟩])) hrest
  | case6 s rest depth hzero hlowest next hopen ih =>
    have step :
        s.Keeps { s with depth, lowest := depth, here := next, held := '}' :: s.held } '}' :=
      ⟨rfl, rfl, rfl, rfl, by dsimp only; omega⟩
    have hrest := ih (h.keep step) (h.keep step).width_eq
    have hdeep : depth? limit (s.depth - 1) = some depth := (h.keep step).depth?_eq hsource
    have hoffset : s.here % Span.offsetRange = s.here := Nat.mod_eq_of_lt (by omega)
    simp only [bytes_cons, hclosing, List.singleton_append, runBytes?, cursor, if_neg hne, if_true,
      hdeep, if_neg hzero, if_pos hlowest, hoffset, Option.bind_eq_bind, Option.bind_some]
    exact congrArg (Option.bind · fun scan => some (scan.withStray s.here)) hrest
  | case7 s rest depth hzero hlowest next hopen ih =>
    have step : s.Keeps { s with depth, here := next, held := '}' :: s.held } '}' :=
      ⟨rfl, rfl, rfl, rfl, by dsimp only; omega⟩
    have hrest := ih (h.keep step) (h.keep step).width_eq
    have hdeep : depth? limit (s.depth - 1) = some depth := (h.keep step).depth?_eq hsource
    simp only [bytes_cons, hclosing, List.singleton_append, runBytes?, cursor, if_neg hne, if_true,
      hdeep, if_neg hzero, if_neg hlowest, Option.bind_eq_bind, Option.bind_some]
    exact hrest
  | case8 s c rest next hopen hclose ih =>
    have step : s.Keeps { s with here := next, held := c :: s.held } c :=
      ⟨by simp [depth_other hopen hclose], rfl, rfl, rfl, Iff.rfl⟩
    have hrest := ih (h.keep step) (h.keep step).width_eq
    rw [bytes_cons, runBytes?_append (ne_of_mem_utf8EncodeChar hopen hclose),
      String.length_utf8EncodeChar]
    exact hrest

end Reads

end State

/-- The scan of the bytes of a text is the scan of the text. Every cut is between two characters,
and the depth stays within the length of the text. -/
theorem ofBytes?_eq {limit : Nat} (hlimit : limit < Span.offsetRange) {text : Text}
    (h : width text ≤ limit) : ofBytes? limit text = some (ofText text) :=
  (State.Reads.start text).runBytes?_eq hlimit h

end Pattern.Scan

end Phrasebook
