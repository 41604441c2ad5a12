import Phrasebook.Proofs.Pattern.Cutting
import Phrasebook.Proofs.Pattern.Recognition

/-!
# Where nodes come from

Every node of a pattern that was read, at any depth, comes from a chunk that stands in the pattern
under the span of the node. The only exception is the empty text that takes the place of a missing
fallback.
-/

namespace Phrasebook

namespace Pattern

open Text

/-! ### Places in a pattern -/

/-- A text stands in a pattern from an offset on. -/
def StandsAt (pattern : Text) (offset : Nat) (text : Text) : Prop :=
  ∃ before after, pattern = before ++ (text ++ after) ∧ width before = offset

namespace StandsAt

variable {pattern text : Text} {offset : Nat}

theorem refl (pattern : Text) : StandsAt pattern 0 pattern := ⟨[], [], by simp, rfl⟩

/-- The span from the offset on covers the text. -/
theorem slice? (h : StandsAt pattern offset text) :
    Span.slice? ⟨offset, offset + width text⟩ pattern = some text := by
  obtain ⟨before, after, rfl, rfl⟩ := h
  exact Span.slice?_append before text after

/-- A part of a text stands in the pattern as well. -/
theorem part {front back : Text} (h : StandsAt pattern offset (front ++ (text ++ back))) :
    StandsAt pattern (offset + width front) text := by
  obtain ⟨before, after, rfl, rfl⟩ := h
  exact ⟨before ++ front, back ++ after, by simp, by simp⟩

end StandsAt

/-! ### Chunks in their places -/

/-- What a chunk is read as that stands at an offset. -/
def Chunk.read (offset : Nat) : Chunk → Parsed
  | .literal text => { nodes := [.text text ⟨offset, offset + width text⟩] }
  | .group content => groupWith parseAt content ⟨offset, offset + (width content + 2)⟩

/-- What chunks are read as that stand one after the other from an offset on. -/
def readChunks (offset : Nat) : List Chunk → Parsed
  | [] => {}
  | chunk :: rest => (chunk.read offset).append (readChunks (offset + width chunk.spell) rest)

theorem concat_place (base offset : Nat) (chunks : List Chunk) :
    Parsed.concat ((place offset chunks).map (segmentWith parseAt base)) =
      readChunks (base + offset) chunks := by
  induction chunks generalizing offset with
  | nil => rfl
  | cons chunk chunks ih =>
    cases chunk with
    | literal text =>
      rw [place, List.map_cons, Parsed.concat, ih, readChunks, width_spell_literal, segmentWith,
        Span.shift_from, Chunk.read, Nat.add_assoc base offset]
    | group content =>
      rw [place, List.map_cons, Parsed.concat, ih, readChunks, width_spell_group, segmentWith,
        Span.shift_from, Chunk.read, Nat.add_assoc base offset]

/-- A text is read as the chunks that its scan finds. -/
theorem parseAt_eq_readChunks {text : Text} {chunks : List Chunk} {tail : Text}
    (h : Finds (Scan.ofText text) 0 text chunks tail) (base : Nat) :
    parseAt text base =
      Parsed.append { diagnostics := (Scan.ofText text).diagnostics base }
        (readChunks base chunks) := by
  rw [parseAt_eq, nodesWith_eq, h.segments, concat_place, Nat.add_zero]

/-- A chunk is read as a single node, whose span covers the chunk. -/
theorem Chunk.exists_node (offset : Nat) (chunk : Chunk) :
    ∃ n, (chunk.read offset).nodes = [n] ∧ n.span = ⟨offset, offset + width chunk.spell⟩ := by
  cases chunk with
  | literal text => exact ⟨_, rfl, rfl⟩
  | group content =>
    rw [width_spell_group, Chunk.read, groupWith]
    split_ifs
    · exact ⟨_, rfl, rfl⟩
    · exact ⟨_, rfl, rfl⟩
    · exact ⟨_, rfl, rfl⟩

/-- What is read from chunks is read from one of them, in its place. -/
theorem exists_of_mem_readChunks {offset : Nat} {chunks : List Chunk} {n : Node}
    (h : n ∈ (readChunks offset chunks).nodes) :
    ∃ front chunk back, chunks = front ++ chunk :: back ∧
      (chunk.read (offset + width (spell front))).nodes = [n] := by
  induction chunks generalizing offset with
  | nil => simp [readChunks] at h
  | cons first chunks ih =>
    rcases List.mem_append.mp h with h | h
    · obtain ⟨node, hnode, -⟩ := first.exists_node offset
      rw [hnode, List.mem_singleton] at h
      exact ⟨[], first, chunks, rfl, by simpa [h] using hnode⟩
    · obtain ⟨front, chunk, back, rfl, hread⟩ := ih h
      refine ⟨first :: front, chunk, back, rfl, ?_⟩
      rwa [spell_cons, width_append, ← Nat.add_assoc]

/-- What is said about a chunk is said about the chunks around it. -/
theorem diagnostics_subset_readChunks (offset : Nat) (front : List Chunk) (chunk : Chunk)
    (back : List Chunk) :
    (chunk.read (offset + width (spell front))).diagnostics ⊆
      (readChunks offset (front ++ chunk :: back)).diagnostics := by
  induction front generalizing offset with
  | nil => exact List.subset_append_left _ _
  | cons first front ih =>
    rw [spell_cons, width_append, ← Nat.add_assoc]
    exact List.Subset.trans (ih _) (List.subset_append_right _ _)

theorem spell_append (a b : List Chunk) : spell (a ++ b) = spell a ++ spell b :=
  List.flatMap_append

/-! ### Arms in their places -/

namespace Strip

/-- How a label and the group after it are spelled. -/
def spell (strip : Strip) : Text := strip.label ++ ('{' :: strip.content ++ ['}'])

/-- Where the content starts, counted from the start of the label. -/
def inner (strip : Strip) : Nat := width strip.label + 1

/-- The arm that a label and a group are read as, from an offset on. -/
def read (offset : Nat) (strip : Strip) : ReadArm :=
  ⟨trim strip.label, ⟨offset, offset + width strip.spell⟩,
    parseAt strip.content (offset + strip.inner)⟩

theorem width_spell (strip : Strip) :
    width strip.spell = width strip.label + (width strip.content + 2) := by
  have hopen : '{'.utf8Size = 1 := rfl
  have hclose : '}'.utf8Size = 1 := rfl
  simp only [spell, List.cons_append, width_cons, width_append, width_nil, hopen, hclose]
  omega

end Strip

/-- The arms that labelled groups are read as, one after the other from an offset on. -/
def readStrips (offset : Nat) : List Strip → List ReadArm
  | [] => []
  | strip :: rest => strip.read offset :: readStrips (offset + width strip.spell) rest

/-- Labelled groups in their places are read as arms in their places. -/
theorem map_ofSegments_place (base offset : Nat) (strips : List Strip) (last : Text) :
    ((Arm.ofSegments none (place offset (stripChunks strips last))).1.map fun arm =>
        (⟨arm.label, arm.span.shift base, parseAt arm.content (base + arm.start)⟩ : ReadArm)) =
      readStrips (base + offset) strips := by
  induction strips generalizing offset with
  | nil =>
    by_cases hlast : last = []
    · simp [stripChunks, labelChunks, hlast, place, Arm.ofSegments, readStrips]
    · simp [stripChunks, labelChunks, hlast, place, Arm.ofSegments, readStrips]
  | cons strip strips ih =>
    have hnext : base + offset + width strip.spell =
        base + (offset + width strip.label + (width strip.content + 2)) := by
      rw [strip.width_spell]
      omega
    have hcover := Span.cover_adjacent offset (width strip.label) (width strip.content + 2)
    rw [← strip.width_spell] at hcover
    have hinner : base + (offset + width strip.label + 1) = base + offset + strip.inner := by
      rw [Strip.inner]
      omega
    rw [readStrips, hnext, ← ih, Strip.read, ← hinner, ← Span.shift_from, ← hcover]
    by_cases hlabel : strip.label = []
    · simp [stripChunks, labelChunks, hlabel, place, Arm.ofSegments, Span.point]
    · simp [stripChunks, labelChunks, hlabel, place, Arm.ofSegments]

/-- An arm stands where its label and its group are spelled. -/
theorem exists_of_mem_readStrips {offset : Nat} {strips : List Strip} {arm : ReadArm}
    (h : arm ∈ readStrips offset strips) (last : Text) :
    ∃ strip ∈ strips, ∃ front back,
      spell (stripChunks strips last) = front ++ (strip.spell ++ back) ∧
        arm = strip.read (offset + width front) := by
  induction strips generalizing offset with
  | nil => simp [readStrips] at h
  | cons first strips ih =>
    have hspell : spell (stripChunks (first :: strips) last) =
        first.spell ++ spell (stripChunks strips last) := by
      simp [stripChunks, Strip.spell, Chunk.spell]
    rcases List.mem_cons.mp h with rfl | h
    · exact ⟨first, List.mem_cons_self, [], _, hspell, rfl⟩
    · obtain ⟨strip, hstrip, front, back, hrest, rfl⟩ := ih h
      refine ⟨strip, List.mem_cons_of_mem _ hstrip, first.spell ++ front, back, ?_, ?_⟩
      · rw [hspell, hrest, List.append_assoc]
      · rw [width_append, Nat.add_assoc]

theorem Balanced.of_append {a b : Text} (h : Balanced (a ++ b)) (ha : BraceFree a) :
    Balanced b := by
  rw [Balanced, level_append, level_of_braceFree ha, Option.bind_some] at h
  exact h

/-- A heading, labelled groups and a text after the last one make up the inside of a select. -/
structure SelectParts (content : Text) (heading : Heading) (strips : List Strip) (last : Text) :
    Prop where
  valid : heading.Valid
  spelled : content = heading.spell ++ spell (stripChunks strips last)
  arms : ∀ strip ∈ strips, BraceFree strip.label ∧ Balanced strip.content
  last : BraceFree last

/-- The inside of a select has a heading, labelled groups and a text after the last one. -/
theorem exists_selectParts {content : Text} (h : Balanced content)
    (hheader : (Header.read? content).isSome = true) :
    ∃ heading strips last, SelectParts content heading strips last := by
  obtain ⟨header, hread⟩ := Option.isSome_iff_exists.mp hheader
  obtain ⟨heading, valid, -, rfl⟩ := Heading.exists_of_read? hread
  obtain ⟨hstrays, hclosed⟩ := (h.of_append valid.braceFree).scan_clean
  obtain ⟨chunks, hchunks, hspell⟩ := exists_chunks hstrays hclosed
  obtain ⟨strips, last, hstrips, hlast, rfl⟩ := exists_stripChunks hchunks
  exact ⟨heading, strips, last, valid, by rw [hspell], hstrips, hlast⟩

namespace SelectParts

variable {content last : Text} {heading : Heading} {strips : List Strip}
  (h : SelectParts content heading strips last)

include h

theorem afterHeader_eq : afterHeader content = spell (stripChunks strips last) := by
  rw [h.spelled, afterHeader_heading h.valid]

theorem afterHeaderAt_eq (base : Nat) :
    afterHeaderAt content base = base + width heading.spell := by
  rw [afterHeaderAt, h.afterHeader_eq, h.spelled, width_append, Nat.add_sub_cancel]

/-- A scan finds the labelled groups and the text after them in their places. -/
theorem ofText_afterHeader :
    Scan.ofText (afterHeader content) = { segments := place 0 (stripChunks strips last) } := by
  rw [h.afterHeader_eq]
  exact ofText_spell (chunked_stripChunks h.arms h.last)

/-- The labelled groups are read as arms in their places. -/
theorem readArms_eq (base : Nat) :
    readArms parseAt content base = readStrips (base + width heading.spell) strips := by
  rw [readArms, armsOf, h.afterHeaderAt_eq, h.ofText_afterHeader]
  exact map_ofSegments_place _ 0 strips last

end SelectParts

/-! ### Nodes at any depth -/

/-- A node stands among nodes, at any depth. -/
inductive Within (nodes : List Node) : Node → Prop
  | top {n : Node} (hmem : n ∈ nodes) : Within nodes n
  | inCase {name : Text} {cases : List Case} {fallback : List Node} {span : Span} {c : Case}
      {n : Node} (hselect : Within nodes (.select name cases fallback span)) (hcase : c ∈ cases)
      (hmem : n ∈ c.body) : Within nodes n
  | inFallback {name : Text} {cases : List Case} {fallback : List Node} {span : Span} {n : Node}
      (hselect : Within nodes (.select name cases fallback span)) (hmem : n ∈ fallback) :
      Within nodes n

/-- A node is what a chunk of a pattern is read as, and what is said about the chunk is said about
the pattern. -/
def ReadFrom (pattern : Text) (n : Node) : Prop :=
  ∃ (chunk : Chunk) (offset : Nat), chunk.Settled ∧ StandsAt pattern offset chunk.spell ∧
    (chunk.read offset).nodes = [n] ∧
    (chunk.read offset).diagnostics ⊆ (parse pattern).diagnostics

/-- A text is read as a pattern of its own where it stands in a pattern. -/
structure LevelAt (pattern : Text) (offset : Nat) (text : Text) : Prop where
  stands : StandsAt pattern offset text
  said : (parseAt text offset).diagnostics ⊆ (parse pattern).diagnostics

/-- An arm of a select stands in a pattern: a label without braces, and a group with matching
braces that is read as a pattern of its own. -/
structure ArmAt (pattern : Text) (offset : Nat) (strip : Strip) : Prop where
  stands : StandsAt pattern offset strip.spell
  braceFree : BraceFree strip.label
  balanced : Balanced strip.content
  said : (strip.read offset).body.diagnostics ⊆ (parse pattern).diagnostics

/-- The select on a name that stands under a span has no fallback of its own, which is reported. An
empty text at the end of the inside of the select takes its place. -/
structure FallbackMissing (pattern name : Text) (fallback : List Node) (span : Span) : Prop where
  eq : fallback = [.text [] (.point (span.stop - 1))]
  reported : ⟨.missingOther name, ⟨span.start + 1, span.stop - 1⟩⟩ ∈ (parse pattern).diagnostics

theorem ArmAt.levelAt {pattern : Text} {offset : Nat} {strip : Strip}
    (h : ArmAt pattern offset strip) :
    LevelAt pattern (offset + strip.inner) strip.content := by
  refine ⟨?_, h.said⟩
  have hparts : strip.spell = (strip.label ++ ['{']) ++ (strip.content ++ ['}']) := by
    simp [Strip.spell]
  have hwidth : strip.inner = width (strip.label ++ ['{']) := by
    rw [Strip.inner, width_append]
    rfl
  have hstands := h.stands
  rw [hparts] at hstands
  rw [hwidth]
  exact hstands.part

/-- A node of a level comes from one of the chunks there. -/
theorem LevelAt.exists_chunk {pattern text tail : Text} {offset : Nat} {chunks : List Chunk}
    (h : LevelAt pattern offset text) (hfinds : Finds (Scan.ofText text) 0 text chunks tail)
    {n : Node} (hn : n ∈ (parseAt text offset).nodes) :
    ∃ chunk ∈ chunks, ∃ start, StandsAt pattern start chunk.spell ∧
      (chunk.read start).nodes = [n] ∧
      (chunk.read start).diagnostics ⊆ (parse pattern).diagnostics := by
  have hparse := parseAt_eq_readChunks hfinds offset
  have hsaid := h.said
  rw [hparse] at hn hsaid
  obtain ⟨front, chunk, back, rfl, hread⟩ := exists_of_mem_readChunks hn
  refine ⟨chunk, by simp, offset + width (spell front), ?_, hread, ?_⟩
  · have hstands := h.stands
    rw [hfinds.spelled, spell_append, spell_cons, List.append_assoc, List.append_assoc] at hstands
    exact hstands.part
  · refine List.Subset.trans ?_ hsaid
    refine List.Subset.trans ?_ (List.subset_append_right _ _)
    exact diagnostics_subset_readChunks offset front chunk back

/-- The nodes of a level come from its chunks. -/
theorem LevelAt.readFrom {pattern text : Text} {offset : Nat} (h : LevelAt pattern offset text)
    {n : Node} (hn : n ∈ (parseAt text offset).nodes) : ReadFrom pattern n := by
  obtain ⟨chunks, tail, hfinds⟩ := exists_finds text
  obtain ⟨chunk, hmem, start, hplace⟩ := h.exists_chunk hfinds hn
  exact ⟨chunk, start, hfinds.settled chunk hmem, hplace⟩

/-- A select is what the inside of a group with a header is read as. -/
structure SelectAt (pattern name : Text) (cases : List Case) (fallback : List Node) (span : Span)
    (content : Text) : Prop where
  stands : StandsAt pattern span.start ('{' :: content ++ ['}'])
  stop : span.stop = span.start + (width content + 2)
  balanced : Balanced content
  header : (Header.read? content).isSome = true
  node : (selectionWith parseAt content (span.start + 1)).1.nodeAt span =
    .select name cases fallback span
  said : (selectionWith parseAt content (span.start + 1)).2 ⊆ (parse pattern).diagnostics

section Selects

variable {pattern name : Text} {cases : List Case} {fallback : List Node} {span : Span}

/-- A select comes from a group with a header. -/
theorem ReadFrom.exists_content (h : ReadFrom pattern (.select name cases fallback span)) :
    ∃ content, SelectAt pattern name cases fallback span content := by
  obtain ⟨chunk, offset, hsettled, hstands, hread, hsaid⟩ := h
  cases chunk with
  | literal text => simp [Chunk.read] at hread
  | group content =>
    rw [Chunk.read, groupWith] at hread hsaid
    split_ifs at hread hsaid with hword hheader
    · simp at hread
    · obtain hnode := List.singleton_inj.mp hread
      obtain rfl : _ = span := congrArg Node.span hnode
      exact ⟨content, hstands, rfl, hsettled, hheader, hnode, hsaid⟩
    · simp at hread

variable {content : Text}

/-- The arms of a select stand inside of its group. -/
theorem SelectAt.exists_arm (h : SelectAt pattern name cases fallback span content)
    {arm : ReadArm} (harm : arm ∈ readArms parseAt content (span.start + 1)) :
    ∃ offset strip, ArmAt pattern offset strip ∧ span.start < offset ∧
      offset + width strip.spell < span.stop ∧ arm = strip.read offset := by
  have hbody : arm.body.diagnostics ⊆ (parse pattern).diagnostics := by
    have hsaid := h.said
    rw [selectionWith_eq] at hsaid
    intro d hd
    exact hsaid (by simp [ReadArm.diagnostics_subset harm [] hd])
  obtain ⟨heading, strips, last, hparts⟩ := exists_selectParts h.balanced h.header
  rw [hparts.readArms_eq] at harm
  obtain ⟨strip, hstrip, front, back, hspell, rfl⟩ := exists_of_mem_readStrips harm last
  have hstop := h.stop
  rw [hparts.spelled, hspell, width_append, width_append, width_append] at hstop
  refine ⟨_, strip, ⟨?_, (hparts.arms strip hstrip).1, (hparts.arms strip hstrip).2, hbody⟩,
    by omega, by omega, rfl⟩
  have hgroup : '{' :: content ++ ['}'] =
      ('{' :: heading.spell ++ front) ++ (strip.spell ++ (back ++ ['}'])) := by
    rw [hparts.spelled, hspell]
    simp
  have hwidth : span.start + 1 + width heading.spell + width front =
      span.start + width ('{' :: heading.spell ++ front) := by
    have hopen : '{'.utf8Size = 1 := rfl
    rw [List.cons_append, width_cons, width_append, hopen]
    omega
  have hstands := h.stands
  rw [hgroup] at hstands
  rw [hwidth]
  exact hstands.part

/-- Each case of a select is one of its arms. -/
theorem SelectAt.exists_case (h : SelectAt pattern name cases fallback span content) {c : Case}
    (hc : c ∈ cases) :
    ∃ strip, ArmAt pattern c.span.start strip ∧ trim strip.label = c.label ∧
      c.span.stop = c.span.start + width strip.spell ∧
      c.body = (parseAt strip.content (c.span.start + strip.inner)).nodes := by
  have hnode := h.node
  rw [selectionWith_eq, Selection.nodeAt, Node.select.injEq] at hnode
  rw [← hnode.2.1, ReadArm.cases, List.mem_map] at hc
  obtain ⟨arm, harm, rfl⟩ := hc
  obtain ⟨offset, strip, hstrip, -, -, rfl⟩ := h.exists_arm (List.mem_of_mem_filter harm)
  exact ⟨strip, hstrip, rfl, rfl, rfl⟩

/-- The fallback of a select is one of its arms, unless it has none. -/
theorem SelectAt.exists_fallback (h : SelectAt pattern name cases fallback span content) :
    (∃ offset strip, ArmAt pattern offset strip ∧ span.start < offset ∧
        offset + width strip.spell < span.stop ∧ trim strip.label = other ∧
        fallback = (parseAt strip.content (offset + strip.inner)).nodes) ∨
      FallbackMissing pattern name fallback span := by
  have hnode := h.node
  have hsaid := h.said
  rw [selectionWith_eq, Selection.nodeAt, Node.select.injEq] at hnode
  rw [selectionWith_eq] at hsaid
  obtain ⟨hname, -, hfallback, -⟩ := hnode
  cases hread : ReadArm.fallback? (readArms parseAt content (span.start + 1)) with
  | some nodes =>
    rw [hread, Option.getD_some] at hfallback
    obtain ⟨arm, hlast, rfl⟩ := Option.map_eq_some_iff.mp hread
    obtain ⟨harm, hlabel⟩ := List.mem_filter.mp (List.mem_of_getLast? hlast)
    obtain ⟨offset, strip, hstrip, hstart, hstop, rfl⟩ := h.exists_arm harm
    exact .inl ⟨offset, strip, hstrip, hstart, hstop, of_decide_eq_true hlabel, hfallback.symm⟩
  | none =>
    have hstop : span.start + 1 + width content = span.stop - 1 := by
      rw [h.stop]
      omega
    rw [hread, Option.getD_none, emptyBody, hstop] at hfallback
    refine .inr ⟨hfallback.symm, hsaid (List.mem_append_right _ ?_)⟩
    simp [missingOther, hread, ← hname, hstop]

end Selects

/-! ### The origin of nodes -/

/-- A node takes the place of the fallback of a select without one. -/
def IsMissingFallback (pattern : Text) (n : Node) : Prop :=
  ∃ name cases fallback span, Within (parse pattern).nodes (.select name cases fallback span) ∧
    n ∈ fallback ∧ FallbackMissing pattern name fallback span

theorem IsMissingFallback.eq_text {pattern : Text} {n : Node} (h : IsMissingFallback pattern n) :
    ∃ span, n = .text [] span := by
  obtain ⟨_, _, _, _, -, hmem, hmissing⟩ := h
  rw [hmissing.eq, List.mem_singleton] at hmem
  exact ⟨_, hmem⟩

/-- A select comes from a group with a header, because what takes the place of a missing fallback is
a text. -/
theorem exists_content_of_origin {pattern name : Text} {cases : List Case} {fallback : List Node}
    {span : Span} (h : ReadFrom pattern (.select name cases fallback span) ∨
      IsMissingFallback pattern (.select name cases fallback span)) :
    ∃ content, SelectAt pattern name cases fallback span content := by
  rcases h with hread | hmissing
  · exact hread.exists_content
  · obtain ⟨_, htext⟩ := hmissing.eq_text
    contradiction

/-- Every node comes from a chunk or takes the place of a missing fallback. -/
theorem Within.origin {pattern : Text} {n : Node} (h : Within (parse pattern).nodes n) :
    ReadFrom pattern n ∨ IsMissingFallback pattern n := by
  -- The induction goes down from select to select; the bodies of each are levels of their own.
  induction h with
  | top hmem =>
    have hlevel : LevelAt pattern 0 pattern := ⟨.refl pattern, List.Subset.refl _⟩
    exact .inl (hlevel.readFrom hmem)
  | inCase _ hcase hmem ih =>
    obtain ⟨content, hcontent⟩ := exists_content_of_origin ih
    obtain ⟨strip, harm, -, -, hbody⟩ := hcontent.exists_case hcase
    rw [hbody] at hmem
    exact .inl (harm.levelAt.readFrom hmem)
  | @inFallback name cases fallback span n hwithin hmem ih =>
    obtain ⟨content, hcontent⟩ := exists_content_of_origin ih
    rcases hcontent.exists_fallback with ⟨offset, strip, harm, -, -, -, rfl⟩ | hmissing
    · exact .inl (harm.levelAt.readFrom hmem)
    · exact .inr ⟨name, cases, fallback, span, hwithin, hmem, hmissing⟩

/-- Every select comes from a group with a header. -/
theorem Within.exists_content {pattern name : Text} {cases : List Case} {fallback : List Node}
    {span : Span} (h : Within (parse pattern).nodes (.select name cases fallback span)) :
    ∃ content, SelectAt pattern name cases fallback span content :=
  exists_content_of_origin h.origin

end Pattern

end Phrasebook
