import Phrasebook.Pattern.Segment
import Mathlib.Data.List.Chain

/-!
# Texts with matching braces

A text whose braces match is cut into chunks: literals without braces, and groups whose contents
have matching braces again. A scan without complaints finds exactly these chunks, in their places.

## Main definitions

* `Pattern.level`, `Pattern.Balanced`: counting braces, and texts where every brace has a partner.
* `Pattern.Chunk`, `Pattern.Chunked`: the segments of such a text without their spans.
* `Pattern.place`: the segments of chunks that stand one after the other.

## Main results

* `Pattern.ofText_spell`: the scan of chunks finds them in their places.
* `Pattern.exists_chunks`: a text that is scanned without complaints is made of chunks.
* `Pattern.mem_of_mem_content`, `Pattern.length_group_lt`: what segments hold comes from the text,
  whatever its braces, and groups are shorter than the text.
-/

namespace Phrasebook.Pattern

open Text

/-! ### Counting braces -/

/-- No brace occurs in a text. -/
def BraceFree (text : Text) : Prop := ∀ c ∈ text, c ≠ '{' ∧ c ≠ '}'

/-- The number of braces that are open after a text, given the number before it. There is none if
a brace is closed that was not open. -/
def level : Nat → Text → Option Nat
  | depth, [] => some depth
  | depth, c :: rest =>
    if c = '{' then level (depth + 1) rest
    else if c = '}' then
      match depth with
      | 0 => none
      | depth + 1 => level depth rest
    else level depth rest

/-- Every brace in a text has a partner. -/
def Balanced (text : Text) : Prop := level 0 text = some 0

theorem level_append (depth : Nat) (a b : Text) :
    level depth (a ++ b) = (level depth a).bind fun middle => level middle b := by
  induction a generalizing depth with
  | nil => rfl
  | cons c a ih =>
    by_cases hopen : c = '{'
    · simp [level, hopen, ih]
    by_cases hclose : c = '}'
    · cases depth with
      | zero => simp [level, hclose]
      | succ depth => simp [level, hclose, ih]
    · simp [level, hopen, hclose, ih]

theorem level_of_braceFree {text : Text} (h : BraceFree text) (depth : Nat) :
    level depth text = some depth := by
  induction text with
  | nil => rfl
  | cons c text ih =>
    have hc := h c (by simp)
    simp [level, hc, ih fun d hd => h d (by simp [hd])]

/-- What is balanced by itself is balanced inside of other braces. -/
theorem level_add {depth after : Nat} {text : Text} (h : level depth text = some after)
    (more : Nat) : level (depth + more) text = some (after + more) := by
  induction text generalizing depth with
  | nil =>
    rw [level, Option.some_inj] at h
    rw [level, h]
  | cons c text ih =>
    by_cases hopen : c = '{'
    · simp only [level, if_pos hopen] at h ⊢
      rw [Nat.add_right_comm]
      exact ih h
    by_cases hclose : c = '}'
    · cases depth with
      | zero => simp [level, hclose] at h
      | succ depth =>
        simp only [level, if_neg hopen, if_pos hclose] at h
        rw [Nat.add_right_comm]
        simp only [level, if_neg hopen, if_pos hclose]
        exact ih h
    · simp only [level, if_neg hopen, if_neg hclose] at h ⊢
      exact ih h

theorem BraceFree.balanced {text : Text} (h : BraceFree text) : Balanced text :=
  level_of_braceFree h 0

theorem balanced_nil : Balanced [] := rfl

theorem Balanced.append {a b : Text} (ha : Balanced a) (hb : Balanced b) : Balanced (a ++ b) := by
  rw [Balanced, level_append, ha]
  exact hb

/-- Braces around a balanced text are balanced. -/
theorem Balanced.braces {content : Text} (h : Balanced content) :
    Balanced ('{' :: content ++ ['}']) := by
  have hinner : level 1 content = some 1 := level_add h 1
  rw [Balanced, List.cons_append, level, if_pos rfl, level_append, hinner]
  rfl

/-! ### Chunks -/

/-- A segment without its span. -/
inductive Chunk where
  | literal (text : Text)
  | group (content : Text)
  deriving DecidableEq, Repr

namespace Chunk

/-- Whether a chunk stands outside of all groups. -/
def isLiteral : Chunk → Bool
  | literal _ => true
  | group _ => false

/-- How a chunk is spelled. -/
def spell : Chunk → Text
  | literal text => text
  | group content => '{' :: content ++ ['}']

/-- A literal has characters and no braces, and the braces inside of a group match. -/
def Valid : Chunk → Prop
  | literal text => text ≠ [] ∧ BraceFree text
  | group content => Balanced content

/-- Two chunks can stand next to each other unless both are literals. -/
def CanPrecede (a b : Chunk) : Prop := ¬ (a.isLiteral ∧ b.isLiteral)

theorem Valid.balanced_spell {chunk : Chunk} (h : chunk.Valid) : Balanced chunk.spell := by
  cases chunk with
  | literal text => exact h.2.balanced
  | group content => exact Balanced.braces h

end Chunk

/-- Chunks that can be told apart again once they are spelled. -/
structure Chunked (chunks : List Chunk) : Prop where
  valid : ∀ chunk ∈ chunks, chunk.Valid
  apart : chunks.IsChain Chunk.CanPrecede

/-- The text of a literal or the content of a group. -/
def Segment.content : Segment → Text
  | literal text _ => text
  | group content _ => content

/-- A segment without its span. -/
def Segment.chunk : Segment → Chunk
  | literal text _ => .literal text
  | group content _ => .group content

/-- How chunks are spelled. -/
def spell (chunks : List Chunk) : Text := chunks.flatMap Chunk.spell

@[simp] theorem spell_nil : spell [] = [] := rfl

@[simp] theorem spell_cons (chunk : Chunk) (chunks : List Chunk) :
    spell (chunk :: chunks) = chunk.spell ++ spell chunks := rfl

theorem Chunked.tail {chunk : Chunk} {chunks : List Chunk} (h : Chunked (chunk :: chunks)) :
    Chunked chunks :=
  ⟨fun other hmem => h.valid other (List.mem_cons_of_mem _ hmem), h.apart.tail⟩

/-- The segments of chunks that stand one after the other from an offset on. -/
def place (offset : Nat) : List Chunk → List Segment
  | [] => []
  | .literal text :: rest =>
    .literal text ⟨offset, offset + width text⟩ :: place (offset + width text) rest
  | .group content :: rest =>
    .group content ⟨offset, offset + (width content + 2)⟩ ::
      place (offset + (width content + 2)) rest

@[simp] theorem map_chunk_place (offset : Nat) (chunks : List Chunk) :
    (place offset chunks).map Segment.chunk = chunks := by
  induction chunks generalizing offset with
  | nil => rfl
  | cons chunk chunks ih =>
    cases chunk <;> simp [place, Segment.chunk, ih]

/-! ### Scanning chunks -/

namespace Scan

/-- The state at the start of a segment outside of all groups, with no stray brace so far. -/
def State.fresh (offset : Nat) : State := { start := offset, here := offset }

/-- Characters other than braces are held. -/
theorem run_braceFree {text : Text} (h : BraceFree text) (s : State) (rest : Text) :
    run s (text ++ rest) =
      run { s with here := s.here + width text, held := text.reverse ++ s.held } rest := by
  induction text generalizing s with
  | nil => rfl
  | cons c text ih =>
    have hc := h c (by simp)
    rw [List.cons_append, run, if_neg hc.1, if_neg hc.2, ih fun d hd => h d (by simp [hd])]
    simp [Nat.add_assoc]

/-- A group that is open is held up to the brace that closes it. -/
theorem run_content {content : Text} {depth : Nat} {s : State} (hdepth : s.depth = depth + 1)
    (hlowest : s.lowest ≤ 0) (h : level depth content = some 0) (rest : Text) :
    run s (content ++ '}' :: rest) =
      (run { lowest := s.lowest, start := s.here + (width content + 1),
             here := s.here + (width content + 1) } rest).withSegments
        [.group (s.held.reverse ++ content) ⟨s.start, s.here + (width content + 1)⟩] := by
  -- The depth of the scan counts the brace of the group itself, so it is one ahead of `level`.
  induction content generalizing s depth with
  | nil =>
    obtain rfl : depth = 0 := by simpa [level] using h
    have hbrace : '}'.utf8Size = 1 := rfl
    rw [List.nil_append, run, if_neg (by decide), if_pos rfl, if_pos (by omega)]
    simp [hbrace]
  | cons c content ih =>
    have hsum : s.here + c.utf8Size + (width content + 1) =
        s.here + (width (c :: content) + 1) := by
      rw [width_cons]
      omega
    by_cases hopen : c = '{'
    · simp only [level, if_pos hopen] at h
      rw [List.cons_append, run, if_pos hopen, if_neg (by omega)]
      refine (ih ?_ ?_ h).trans ?_
      · simp only [hdepth]
        omega
      · exact hlowest
      · simp only [hsum, List.reverse_cons, List.append_assoc, List.singleton_append]
    by_cases hclose : c = '}'
    · cases depth with
      | zero => simp [level, hclose] at h
      | succ depth =>
        simp only [level, if_neg hopen, if_pos hclose] at h
        rw [List.cons_append, run, if_neg hopen, if_pos hclose, if_neg (by omega),
          if_neg (by omega)]
        refine (ih ?_ ?_ h).trans ?_
        · simp only [hdepth]
          omega
        · exact hlowest
        · simp only [hsum, List.reverse_cons, List.append_assoc, List.singleton_append]
    · simp only [level, if_neg hopen, if_neg hclose] at h
      rw [List.cons_append, run, if_neg hopen, if_neg hclose]
      refine (ih ?_ ?_ h).trans ?_
      · exact hdepth
      · exact hlowest
      · simp only [hsum, List.reverse_cons, List.append_assoc, List.singleton_append]

@[simp] theorem withSegments_withSegments (scan : Scan) (a b : List Segment) :
    (scan.withSegments a).withSegments b = scan.withSegments (b ++ a) := by
  simp [withSegments]

/-- An opening brace outside of all groups ends the literal in front of it. -/
theorem run_open {s : State} (hdepth : s.depth = 0) (rest : Text) :
    run s ('{' :: rest) =
      (run { depth := 1, lowest := s.lowest, start := s.here, here := s.here + 1 }
        rest).withSegments s.literal := by
  rw [run, if_pos rfl, if_pos hdepth]
  rfl

/-- A closing brace outside of all groups is reported. -/
theorem strays_run_close {s : State} (hdepth : s.depth = 0) (hlowest : s.lowest = 0) (rest : Text) :
    (run s ('}' :: rest)).strays ≠ [] := by
  rw [run, if_neg (by decide), if_pos rfl, if_neg (by omega), if_pos (by omega)]
  simp [withStray]

/-- A group ends the literal in front of it, and the scan starts afresh after it. -/
theorem run_group {content : Text} {s : State} (hdepth : s.depth = 0) (hlowest : s.lowest = 0)
    (h : Balanced content) (rest : Text) :
    run s ('{' :: content ++ '}' :: rest) =
      (run (.fresh (s.here + (width content + 2))) rest).withSegments
        (s.literal ++ [.group content ⟨s.here, s.here + (width content + 2)⟩]) := by
  rw [List.cons_append, run_open hdepth, run_content rfl (by simp [hlowest]) h,
    withSegments_withSegments]
  simp only [State.fresh, hlowest, List.reverse_nil, List.nil_append]
  have hsum : s.here + 1 + (width content + 1) = s.here + (width content + 2) := by omega
  rw [hsum]

/-- A scan finds chunks in their places. -/
theorem run_spell {chunks : List Chunk} (h : Chunked chunks) (offset : Nat) :
    run (.fresh offset) (spell chunks) = { segments := place offset chunks } := by
  induction chunks generalizing offset with
  | nil => rfl
  | cons chunk chunks ih =>
    cases chunk with
    | group content =>
      have hcontent : Balanced content := h.valid (.group content) (by simp)
      simp only [spell_cons, Chunk.spell, List.append_assoc, List.singleton_append]
      rw [run_group rfl rfl hcontent, ih h.tail]
      simp [withSegments, place, State.fresh, State.literal]
    | literal text =>
      obtain ⟨hnil, hfree⟩ : text ≠ [] ∧ BraceFree text := h.valid (.literal text) (by simp)
      simp only [spell_cons, Chunk.spell]
      rw [run_braceFree hfree]
      cases chunks with
      | nil => simp [run, State.fresh, State.literal, hnil, place]
      | cons next chunks =>
        cases next with
        | literal other => exact absurd ⟨rfl, rfl⟩ (List.isChain_cons_cons.mp h.apart).1
        | group content =>
          have hcontent : Balanced content := h.valid (.group content) (by simp)
          have hrest := ih h.tail (offset + width text)
          simp only [spell_cons, Chunk.spell, List.append_assoc, List.singleton_append] at hrest ⊢
          rw [run_group rfl rfl hcontent] at hrest ⊢
          rw [← withSegments_withSegments]
          simp only [State.fresh, State.literal, List.isEmpty_nil, if_true, List.nil_append]
            at hrest ⊢
          rw [hrest]
          simp [withSegments, hnil, place]

/-! ### Texts that are scanned without complaints -/

/-- A group that is not unterminated is closed somewhere. -/
theorem exists_content {text : Text} {depth : Nat} {s : State}
    (h : (run s text).unterminated = none) (hdepth : s.depth = depth + 1) (hlowest : s.lowest ≤ 0) :
    ∃ content rest, text = content ++ '}' :: rest ∧ level depth content = some 0 := by
  induction text generalizing s depth with
  | nil => simp [run, hdepth, show (0 : Int) < depth + 1 by omega] at h
  | cons c text ih =>
    by_cases hopen : c = '{'
    · rw [run, if_pos hopen, if_neg (by omega)] at h
      obtain ⟨content, rest, rfl, hlevel⟩ :=
        @ih (depth + 1) _ h (by simp only [hdepth]; omega) hlowest
      exact ⟨c :: content, rest, rfl, by simpa [level, hopen] using hlevel⟩
    by_cases hclose : c = '}'
    · cases depth with
      | zero => exact ⟨[], text, by simp [hclose], rfl⟩
      | succ depth =>
        rw [run, if_neg hopen, if_pos hclose, if_neg (by omega), if_neg (by omega)] at h
        obtain ⟨content, rest, rfl, hlevel⟩ := @ih depth _ h (by simp only [hdepth]; omega) hlowest
        exact ⟨c :: content, rest, rfl, by simpa [level, hopen, hclose] using hlevel⟩
    · rw [run, if_neg hopen, if_neg hclose] at h
      obtain ⟨content, rest, rfl, hlevel⟩ := @ih depth _ h hdepth hlowest
      exact ⟨c :: content, rest, rfl, by simpa [level, hopen, hclose] using hlevel⟩

/-- A text is a literal, then nothing, a group or a stray brace. -/
theorem exists_literal (text : Text) :
    ∃ literal rest, text = literal ++ rest ∧ BraceFree literal ∧
      (rest = [] ∨ (∃ more, rest = '{' :: more) ∨ ∃ more, rest = '}' :: more) := by
  induction text with
  | nil => exact ⟨[], [], rfl, by simp [BraceFree], .inl rfl⟩
  | cons c text ih =>
    by_cases hopen : c = '{'
    · exact ⟨[], c :: text, rfl, by simp [BraceFree], .inr (.inl ⟨text, by rw [hopen]⟩)⟩
    by_cases hclose : c = '}'
    · exact ⟨[], c :: text, rfl, by simp [BraceFree], .inr (.inr ⟨text, by rw [hclose]⟩)⟩
    obtain ⟨literal, rest, rfl, hfree, hrest⟩ := ih
    refine ⟨c :: literal, rest, rfl, ?_, hrest⟩
    intro d hd
    rcases List.mem_cons.mp hd with rfl | hd
    · exact ⟨hopen, hclose⟩
    · exact hfree d hd

/-- A literal, unless it is empty, and a group can stand in front of chunks. -/
theorem exists_chunks_cons {text content : Text} {chunks : List Chunk} (htext : BraceFree text)
    (hcontent : Balanced content) (h : Chunked chunks) :
    ∃ all, Chunked all ∧ spell all = text ++ ('{' :: content ++ '}' :: spell chunks) := by
  have hgroup : Chunked (.group content :: chunks) := by
    refine ⟨?_, ?_⟩
    · intro chunk hmem
      rcases List.mem_cons.mp hmem with rfl | hmem
      · exact hcontent
      · exact h.valid chunk hmem
    · exact List.isChain_cons.mpr ⟨fun _ _ hboth => Bool.noConfusion hboth.1, h.apart⟩
  by_cases hnil : text = []
  · exact ⟨_, hgroup, by simp [Chunk.spell, hnil]⟩
  · refine ⟨.literal text :: .group content :: chunks, ⟨?_, ?_⟩, by simp [Chunk.spell]⟩
    · intro chunk hmem
      rcases List.mem_cons.mp hmem with rfl | hmem
      · exact ⟨hnil, htext⟩
      · exact hgroup.valid chunk hmem
    · exact List.isChain_cons_cons.mpr ⟨fun hboth => Bool.noConfusion hboth.2, hgroup.apart⟩

/-- A text that is scanned without complaints is made of chunks. -/
theorem exists_chunks_run {text : Text} {offset : Nat}
    (hstrays : (run (.fresh offset) text).strays = [])
    (hclosed : (run (.fresh offset) text).unterminated = none) :
    ∃ chunks, Chunked chunks ∧ spell chunks = text := by
  -- After a group the scan starts afresh, so what follows is a shorter text of the same kind.
  induction hlength : text.length using Nat.strong_induction_on generalizing text offset with
  | _ n ih =>
    obtain ⟨literal, rest, rfl, hfree, hrest⟩ := exists_literal text
    rw [run_braceFree hfree] at hstrays hclosed
    rcases hrest with rfl | ⟨more, rfl⟩ | ⟨more, rfl⟩
    · by_cases hnil : literal = []
      · exact ⟨[], ⟨by simp, .nil⟩, by simp [hnil]⟩
      · exact ⟨[.literal literal], ⟨by simp [Chunk.Valid, hnil, hfree], .singleton _⟩,
          by simp [Chunk.spell]⟩
    · have hopen := hclosed
      rw [run_open rfl] at hopen
      obtain ⟨content, after, rfl, hcontent⟩ := @exists_content more 0 _ hopen rfl (Int.le_refl 0)
      rw [← List.cons_append, run_group rfl rfl hcontent] at hstrays hclosed
      obtain ⟨chunks, hchunks, rfl⟩ := ih after.length
        (by rw [← hlength]; simp only [List.length_append, List.length_cons]; omega)
        hstrays hclosed rfl
      exact exists_chunks_cons hfree hcontent hchunks
    · exact absurd hstrays (strays_run_close rfl rfl more)

/-! ### Segments of any text -/

theorem State.eq_of_mem_literal {s : State} {segment : Segment} (h : segment ∈ s.literal) :
    segment = .literal s.held.reverse ⟨s.start, s.here⟩ := by
  rw [State.literal] at h
  split at h
  · simp at h
  · exact List.mem_singleton.mp h

/-- The characters of a segment have been held, or are still to be read. -/
theorem mem_of_mem_run {s : State} {text : Text} {segment : Segment}
    (h : segment ∈ (run s text).segments) {c : Char} (hc : c ∈ segment.content) :
    c ∈ s.held ∨ c ∈ text := by
  fun_induction run s text with
  | case1 s hdepth => simp at h
  | case2 s hdepth =>
    obtain rfl := State.eq_of_mem_literal h
    exact .inl (List.mem_reverse.mp hc)
  | case3 s rest hdepth next ih =>
    rcases List.mem_append.mp h with h | h
    · obtain rfl := State.eq_of_mem_literal h
      exact .inl (List.mem_reverse.mp hc)
    · rcases ih h with held | later
      · simp at held
      · exact .inr (List.mem_cons_of_mem _ later)
  | case4 s rest hdepth next ih => grind
  | case5 s rest depth hzero next hopen ih =>
    rcases List.mem_append.mp h with h | h
    · obtain rfl := List.mem_singleton.mp h
      exact .inl (List.mem_reverse.mp hc)
    · rcases ih h with held | later
      · simp at held
      · exact .inr (List.mem_cons_of_mem _ later)
  | case6 s rest depth hzero hlowest next hopen ih => grind [withStray]
  | case7 s rest depth hzero hlowest next hopen ih => grind
  | case8 s c rest next hopen hclose ih => grind

/-- The content of a group is shorter than what was held and what is still to be read. -/
theorem length_lt_of_mem_run {s : State} {text content : Text} {span : Span}
    (h : .group content span ∈ (run s text).segments) :
    content.length < s.held.length + text.length := by
  fun_induction run s text with
  | case1 s hdepth => simp at h
  | case2 s hdepth => simpa using State.eq_of_mem_literal h
  | case3 s rest hdepth next ih =>
    rcases List.mem_append.mp h with h | h
    · simpa using State.eq_of_mem_literal h
    · have hshort := ih h
      simp only [List.length_nil, List.length_cons] at hshort ⊢
      omega
  | case4 s rest hdepth next ih => grind
  | case5 s rest depth hzero next hopen ih =>
    rcases List.mem_append.mp h with h | h
    · obtain ⟨rfl, rfl⟩ := Segment.group.inj (List.mem_singleton.mp h)
      simp
    · have hshort := ih h
      simp only [List.length_nil, List.length_cons] at hshort ⊢
      omega
  | case6 s rest depth hzero hlowest next hopen ih => grind [withStray]
  | case7 s rest depth hzero hlowest next hopen ih => grind
  | case8 s c rest next hopen hclose ih => grind

end Scan

/-! ### Scans of whole texts -/

/-- The scan of chunks finds them in their places. -/
theorem ofText_spell {chunks : List Chunk} (h : Chunked chunks) :
    Scan.ofText (spell chunks) = { segments := place 0 chunks } :=
  Scan.run_spell h 0

/-- A text that is scanned without complaints is made of chunks. -/
theorem exists_chunks {text : Text} (hstrays : (Scan.ofText text).strays = [])
    (hclosed : (Scan.ofText text).unterminated = none) :
    ∃ chunks, Chunked chunks ∧ spell chunks = text :=
  Scan.exists_chunks_run hstrays hclosed

/-- What a segment holds comes from the text. -/
theorem mem_of_mem_content {text : Text} {segment : Segment}
    (h : segment ∈ (Scan.ofText text).segments) {c : Char} (hc : c ∈ segment.content) :
    c ∈ text := by
  simpa using Scan.mem_of_mem_run h hc

/-- A group is shorter than the text. -/
theorem length_group_lt {text content : Text} {span : Span}
    (h : .group content span ∈ (Scan.ofText text).segments) : content.length < text.length := by
  simpa using Scan.length_lt_of_mem_run h

/-- Chunks are determined by how they are spelled. -/
theorem spell_injective {a b : List Chunk} (ha : Chunked a) (hb : Chunked b)
    (h : spell a = spell b) : a = b := by
  have hscan := congrArg (fun text => (Scan.ofText text).segments.map Segment.chunk) h
  simpa only [ofText_spell ha, ofText_spell hb, map_chunk_place] using hscan

end Phrasebook.Pattern
