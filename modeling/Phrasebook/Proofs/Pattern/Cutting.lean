import Phrasebook.Proofs.Pattern.Chunks

/-!
# Cutting any text

The braces of a text need not match. A scan still cuts every text into chunks that stand one after
the other, and a tail that opens a group and never closes it. Literals may then have braces, but
they never have more opening than closing braces up to some place.
-/

namespace Phrasebook.Pattern

open Text

/-! ### Depth -/

/-- The number of opening braces in a text minus the number of closing ones. -/
def depth (text : Text) : Int := (text.count '{' : Int) - text.count '}'

@[simp] theorem depth_nil : depth [] = 0 := rfl

@[simp] theorem depth_append (a b : Text) : depth (a ++ b) = depth a + depth b := by
  simp only [depth, List.count_append, Int.natCast_add]
  omega

theorem depth_opening : depth ['{'] = 1 := rfl

theorem depth_closing : depth ['}'] = -1 := rfl

theorem depth_other {c : Char} (hopen : c ≠ '{') (hclose : c ≠ '}') : depth [c] = 0 := by
  simp [depth, hopen, hclose]

/-- Up to no place in a text there are more opening than closing braces. -/
def NeverOpens (text : Text) : Prop := ∀ front, front <+: text → depth front ≤ 0

theorem neverOpens_nil : NeverOpens [] := by
  intro front hfront
  rw [List.prefix_nil.mp hfront]
  exact Int.le_refl 0

theorem NeverOpens.concat {text : Text} {c : Char} (h : NeverOpens text)
    (hc : depth text + depth [c] ≤ 0) : NeverOpens (text ++ [c]) := by
  intro front hfront
  rcases List.prefix_concat_iff.mp hfront with rfl | hfront
  · rwa [depth_append]
  · exact h front hfront

/-- A text opens a group and never closes it. -/
def Unclosed (text : Text) : Prop := ∃ rest inner, text = '{' :: rest ∧ level 0 rest = some inner

/-! ### Cuts -/

/-- A literal in any text has characters and never opens a group, and the braces inside of a group
match. -/
def Chunk.Settled : Chunk → Prop
  | literal text => text ≠ [] ∧ NeverOpens text
  | group content => Balanced content

/-- Chunks and a tail make up a text. There is a tail only if a group is never closed. -/
structure Cut (text : Text) (chunks : List Chunk) (tail : Text) : Prop where
  spelled : text = spell chunks ++ tail
  settled : ∀ chunk ∈ chunks, chunk.Settled
  unclosed : tail = [] ∨ Unclosed tail

/-- A scan finds chunks and a tail in a text that starts at an offset. -/
structure Finds (scan : Scan) (offset : Nat) (text : Text) (chunks : List Chunk) (tail : Text) :
    Prop extends Cut text chunks tail where
  segments : scan.segments = place offset chunks
  unterminated : scan.unterminated =
    if tail = [] then none else some ⟨offset + width (spell chunks), offset + width text⟩

@[simp] theorem width_spell_literal (text : Text) : width (Chunk.literal text).spell = width text :=
  rfl

@[simp] theorem width_spell_group (content : Text) :
    width (Chunk.group content).spell = width content + 2 := by
  have hopen : '{'.utf8Size = 1 := rfl
  have hclose : '}'.utf8Size = 1 := rfl
  simp only [Chunk.spell, List.cons_append, width_cons, width_append, width_nil, hopen, hclose]
  omega

theorem place_cons (offset : Nat) (chunk : Chunk) (chunks : List Chunk) :
    place offset (chunk :: chunks) =
      place offset [chunk] ++ place (offset + width chunk.spell) chunks := by
  cases chunk <;> simp [place]

/-- A chunk in front of a cut. -/
theorem Finds.cons {scan : Scan} {offset : Nat} {text : Text} {chunk : Chunk} {chunks : List Chunk}
    {tail : Text} (hchunk : chunk.Settled)
    (h : Finds scan (offset + width chunk.spell) text chunks tail) :
    Finds (scan.withSegments (place offset [chunk])) offset (chunk.spell ++ text)
      (chunk :: chunks) tail where
  spelled := by rw [spell_cons, List.append_assoc, ← h.spelled]
  settled := List.forall_mem_cons.mpr ⟨hchunk, h.settled⟩
  unclosed := h.unclosed
  segments := by rw [place_cons offset chunk chunks, ← h.segments]; rfl
  unterminated := by
    simp only [Scan.withSegments, h.unterminated, spell_cons, width_append, Nat.add_assoc]

namespace Scan

/-! ### What a scan holds -/

namespace State

/-- The part of the text that the current segment has taken so far. -/
def pending (s : State) : Text := if 0 < s.depth then '{' :: s.held.reverse else s.held.reverse

/-- What is held belongs to one segment: inside of a group the braces so far match up to those that
are still open, and outside of all groups none was opened. -/
structure Holds (s : State) : Prop where
  here : s.here = s.start + width s.pending
  outside : s.depth ≤ 0 → NeverOpens s.held.reverse ∧ Pattern.depth s.held.reverse = s.depth
  inside : 0 < s.depth → level 0 s.held.reverse = some (s.depth - 1).toNat

theorem pending_outside {s : State} (h : s.depth ≤ 0) : s.pending = s.held.reverse :=
  if_neg (by omega)

theorem pending_inside {s : State} (h : 0 < s.depth) : s.pending = '{' :: s.held.reverse :=
  if_pos h

end State

/-- The count of braces inside of a group goes up and down with every brace. -/
theorem level_concat {text : Text} {inner : Nat} {c : Char} (h : level 0 text = some inner)
    (hc : 0 ≤ inner + Pattern.depth [c]) :
    level 0 (text ++ [c]) = some (inner + Pattern.depth [c]).toNat := by
  rw [level_append, h, Option.bind_some]
  by_cases hopen : c = '{'
  · subst hopen
    rfl
  by_cases hclose : c = '}'
  · subst hclose
    rw [depth_closing] at hc ⊢
    obtain ⟨inner, rfl⟩ : ∃ less, inner = less + 1 := ⟨inner - 1, by omega⟩
    simp only [level, if_neg hopen, if_true, Option.some_inj]
    omega
  · simp [level, hopen, hclose, depth_other hopen hclose]

/-- The state after a character that neither opens nor closes a segment. -/
structure State.Keeps (s next : State) (c : Char) : Prop where
  depth : next.depth = s.depth + Pattern.depth [c]
  start : next.start = s.start
  here : next.here = s.here + c.utf8Size
  held : next.held = c :: s.held
  side : 0 < s.depth ↔ 0 < next.depth

section Step

variable {s next : State} {c : Char}

theorem State.Keeps.pending (step : s.Keeps next c) (rest : Text) :
    next.pending ++ rest = s.pending ++ c :: rest := by
  by_cases hinside : 0 < s.depth
  · rw [pending_inside hinside, pending_inside (step.side.mp hinside), step.held]
    simp
  · have houtside : ¬ 0 < next.depth := fun h => hinside (step.side.mpr h)
    rw [pending_outside (by omega), pending_outside (by omega), step.held]
    simp

/-- Such a character is held along with the others. -/
theorem State.Keeps.holds (step : s.Keeps next c) (h : s.Holds) : next.Holds := by
  have hside := step.side
  have hdepth := step.depth
  constructor
  · have hpending := step.pending []
    rw [List.append_nil] at hpending
    rw [hpending, width_append, step.here, step.start, h.here, width_cons, width_nil]
    omega
  · intro houtside
    obtain ⟨hopens, hsum⟩ := h.outside (by omega)
    rw [step.held, List.reverse_cons]
    refine ⟨hopens.concat ?_, ?_⟩
    · rw [hsum, ← hdepth]
      exact houtside
    · rw [depth_append, hsum, hdepth]
  · intro hinside
    rw [step.held, List.reverse_cons, level_concat (h.inside (by omega)) (by omega)]
    congr 2
    omega

end Step

/-- The start of a segment outside of all groups holds nothing. -/
theorem holds_outside (lowest : Int) (offset : Nat) :
    State.Holds { lowest, start := offset, here := offset } where
  here := by simp [State.pending]
  outside _ := ⟨neverOpens_nil, rfl⟩
  inside h := absurd h (by simp)

/-- The start of a group holds its brace. -/
theorem holds_inside (lowest : Int) (offset : Nat) :
    State.Holds { depth := 1, lowest, start := offset, here := offset + '{'.utf8Size } where
  here := by simp [State.pending]
  outside h := absurd h (by simp)
  inside _ := rfl

/-! ### What a scan finds -/

/-- The literal that ends here is found in front of what is found after it. -/
theorem finds_literal {s : State} {scan : Scan} {text tail : Text} {chunks : List Chunk}
    (h : s.Holds) (hdepth : s.depth ≤ 0) (hrest : Finds scan s.here text chunks tail) :
    ∃ all, Finds (scan.withSegments s.literal) s.start (s.pending ++ text) all tail := by
  have hhere := h.here
  rw [State.pending_outside hdepth] at hhere ⊢
  by_cases hnil : s.held = []
  · rw [hnil, List.reverse_nil, width_nil, Nat.add_zero] at hhere
    refine ⟨chunks, ?_⟩
    rw [hhere] at hrest
    simpa [State.literal, hnil, withSegments] using hrest
  · have hsettled : (Chunk.literal s.held.reverse).Settled :=
      ⟨by simpa using hnil, (h.outside hdepth).1⟩
    rw [hhere] at hrest
    refine ⟨.literal s.held.reverse :: chunks, ?_⟩
    have hliteral : s.literal = place s.start [.literal s.held.reverse] := by
      simp [State.literal, hnil, place, hhere]
    rw [hliteral]
    exact Finds.cons hsettled hrest

/-- A scan finds a cut of what it holds and what is still to be read. -/
theorem exists_finds_run {s : State} (h : s.Holds) (text : Text) :
    ∃ chunks tail, Finds (run s text) s.start (s.pending ++ text) chunks tail := by
  -- Segments come up at the end of the text, where a group opens and where it closes. In all other
  -- places a character is held.
  fun_induction run s text with
  | case1 s hdepth =>
    refine ⟨[], s.pending, ⟨by simp, by simp, .inr ?_⟩, rfl, ?_⟩
    · exact ⟨_, _, State.pending_inside hdepth, h.inside hdepth⟩
    · rw [if_neg (by simp [State.pending_inside hdepth]), h.here]
      simp
  | case2 s hdepth =>
    have hempty : Finds {} s.here [] [] [] := ⟨⟨rfl, by simp, .inl rfl⟩, rfl, rfl⟩
    obtain ⟨chunks, hchunks⟩ := finds_literal h (by omega) hempty
    exact ⟨chunks, [], by simpa [withSegments] using hchunks⟩
  | case3 s rest hdepth next ih =>
    obtain ⟨chunks, tail, hfinds⟩ := ih (holds_inside s.lowest s.here)
    obtain ⟨all, hall⟩ := finds_literal h (by omega) hfinds
    exact ⟨all, tail, hall⟩
  | case4 s rest hdepth next ih =>
    have step : s.Keeps { s with depth := s.depth + 1, here := next, held := '{' :: s.held } '{' :=
      ⟨rfl, rfl, rfl, rfl, by dsimp only; omega⟩
    rw [← step.pending]
    exact ih (step.holds h)
  | case5 s rest depth hzero next hopen ih =>
    have hinside : 0 < s.depth := by omega
    obtain ⟨chunks, tail, hfinds⟩ := ih (holds_outside s.lowest _)
    have hsettled : (Chunk.group s.held.reverse).Settled := by
      have hlevel := h.inside hinside
      rwa [show (s.depth - 1).toNat = 0 by omega] at hlevel
    have hnext : next = s.start + width (Chunk.group s.held.reverse).spell := by
      have hhere := h.here
      rw [State.pending_inside hinside, width_cons] at hhere
      rw [width_spell_group]
      have hbrace : '}'.utf8Size = 1 ∧ '{'.utf8Size = 1 := ⟨rfl, rfl⟩
      omega
    have hpending : s.pending ++ '}' :: rest = (Chunk.group s.held.reverse).spell ++ rest := by
      simp [State.pending_inside hinside, Chunk.spell]
    rw [hpending]
    refine ⟨.group s.held.reverse :: chunks, tail, ?_⟩
    have hgroup : [.group s.held.reverse ⟨s.start, next⟩] =
        place s.start [.group s.held.reverse] := by
      rw [place, place, hnext, width_spell_group]
    rw [hgroup]
    refine Finds.cons hsettled ?_
    rw [← hnext]
    exact hfinds
  | case6 s rest depth hzero hlowest next hopen ih =>
    have step :
        s.Keeps { s with depth, lowest := depth, here := next, held := '}' :: s.held } '}' :=
      ⟨rfl, rfl, rfl, rfl, by dsimp only; omega⟩
    rw [← step.pending]
    obtain ⟨chunks, tail, hfinds⟩ := ih (step.holds h)
    exact ⟨chunks, tail, hfinds.toCut, hfinds.segments, hfinds.unterminated⟩
  | case7 s rest depth hzero hlowest next hopen ih =>
    have step : s.Keeps { s with depth, here := next, held := '}' :: s.held } '}' :=
      ⟨rfl, rfl, rfl, rfl, by dsimp only; omega⟩
    rw [← step.pending]
    exact ih (step.holds h)
  | case8 s c rest next hopen hclose ih =>
    have step : s.Keeps { s with here := next, held := c :: s.held } c :=
      ⟨by simp [depth_other hopen hclose], rfl, rfl, rfl, Iff.rfl⟩
    rw [← step.pending]
    exact ih (step.holds h)

/-! ### Single chunks and matching braces -/

/-- A text that never opens a group is held to its end. -/
theorem run_neverOpens {s : State} {text : Text}
    (h : ∀ front, front <+: text → s.depth + Pattern.depth front ≤ 0) :
    (run s text).segments =
        State.literal { s with here := s.here + width text, held := text.reverse ++ s.held } ∧
      (run s text).unterminated = none := by
  induction text generalizing s with
  | nil =>
    have hdepth := h [] List.nil_prefix
    rw [depth_nil, Int.add_zero] at hdepth
    rw [run, if_neg (by omega)]
    exact ⟨rfl, rfl⟩
  | cons c text ih =>
    have hstart := h [] List.nil_prefix
    have hfirst := h [c] ⟨text, rfl⟩
    have hrest : ∀ front, front <+: text →
        s.depth + Pattern.depth [c] + Pattern.depth front ≤ 0 := by
      intro front hfront
      have hcons := h (c :: front) (List.prefix_cons_inj c |>.mpr hfront)
      rw [← List.singleton_append, depth_append] at hcons
      omega
    have hheld : (c :: text).reverse ++ s.held = text.reverse ++ c :: s.held := by simp
    rw [width_cons, ← Nat.add_assoc, hheld]
    rw [depth_nil] at hstart
    by_cases hopen : c = '{'
    · subst hopen
      rw [depth_opening] at hfirst hrest
      rw [run, if_pos rfl, if_neg (by omega)]
      exact ih hrest
    by_cases hclose : c = '}'
    · subst hclose
      rw [depth_closing] at hfirst hrest
      rw [run, if_neg hopen, if_pos rfl, if_neg (by omega)]
      split_ifs
      · exact ih hrest
      · exact ih hrest
    · rw [depth_other hopen hclose, Int.add_zero] at hrest
      rw [run, if_neg hopen, if_neg hclose]
      exact ih hrest

/-- Where all braces match, none is stray or stays open. -/
theorem run_level {s : State} {text : Text} {inner : Nat} (hdepth : s.depth = inner)
    (hlowest : s.lowest ≤ 0) (h : level inner text = some 0) :
    (run s text).strays = [] ∧ (run s text).unterminated = none := by
  induction text generalizing s inner with
  | nil =>
    rw [level, Option.some_inj] at h
    rw [run, if_neg (by omega)]
    exact ⟨rfl, rfl⟩
  | cons c text ih =>
    by_cases hopen : c = '{'
    · subst hopen
      simp only [level, if_true] at h
      rw [run, if_pos rfl]
      split_ifs with hzero
      · obtain rfl : inner = 0 := by omega
        exact @ih _ 1 rfl hlowest h
      · exact @ih _ (inner + 1) (by simp [hdepth]) hlowest h
    by_cases hclose : c = '}'
    · subst hclose
      cases inner with
      | zero => simp [level] at h
      | succ inner =>
        simp only [level, if_neg hopen, if_true] at h
        rw [run, if_neg hopen, if_pos rfl]
        dsimp only
        split_ifs with hzero hstray
        · obtain rfl : inner = 0 := by omega
          exact @ih _ 0 rfl hlowest h
        · omega
        · exact @ih _ inner (by simp [hdepth]) hlowest h
    · simp only [level, if_neg hopen, if_neg hclose] at h
      rw [run, if_neg hopen, if_neg hclose]
      exact ih hdepth hlowest h

end Scan

/-- Every scan finds a cut of its text. -/
theorem exists_finds (text : Text) :
    ∃ chunks tail, Finds (Scan.ofText text) 0 text chunks tail :=
  Scan.exists_finds_run (Scan.holds_outside 0 0) text

/-- A scan of matching braces has no complaints. -/
theorem Balanced.scan_clean {text : Text} (h : Balanced text) :
    (Scan.ofText text).strays = [] ∧ (Scan.ofText text).unterminated = none :=
  Scan.run_level rfl (Int.le_refl 0) h

/-- A chunk that can be found in some text is found in its own spelling, and nothing else is. -/
theorem Chunk.Settled.finds {chunk : Chunk} (h : chunk.Settled) :
    Finds (Scan.ofText chunk.spell) 0 chunk.spell [chunk] [] := by
  have hcut : Cut chunk.spell [chunk] [] := ⟨by simp, by simpa using h, .inl rfl⟩
  cases chunk with
  | literal text =>
    obtain ⟨hnil, hopens⟩ := h
    obtain ⟨hsegments, hclosed⟩ := @Scan.run_neverOpens {} text (by simpa [NeverOpens] using hopens)
    refine ⟨hcut, hsegments.trans ?_, hclosed⟩
    simp [Scan.State.literal, hnil, place]
  | group content =>
    have hchunked : Chunked [.group content] :=
      ⟨fun _ hmem => List.mem_singleton.mp hmem ▸ h, .singleton _⟩
    have hscan := ofText_spell hchunked
    rw [spell_cons, spell_nil, List.append_nil] at hscan
    rw [hscan]
    exact ⟨hcut, rfl, rfl⟩

end Phrasebook.Pattern
