import Phrasebook.Proofs.Pattern.Pointing
import Phrasebook.Proofs.Pattern.Texts
import Phrasebook.Proofs.Template.Parameters
import Phrasebook.Proofs.Text.Blanks

/-!
# The shape of what is read

However malformed a pattern is, the nodes that are read from it have a shape to rely on, at every
depth: variables are words, labels have no blanks around them and no braces in them, and literals
are as long as they can be. Braces end up in texts in two ways only. A group that is not recognized
is kept as a text, and so are braces that do not match, but the latter only at the outermost level.
-/

namespace Phrasebook

namespace Pattern

open Text

/-! ### Scans and their literals -/

namespace Scan

/-- A literal in front of chunks that start with a group leaves literals apart. -/
theorem State.apart_literal (s : State) {chunks : List Chunk} (h : chunks.IsChain Chunk.CanPrecede)
    (hhead : ∀ chunk ∈ chunks.head?, chunk.isLiteral = false) :
    (s.literal.map Segment.chunk ++ chunks).IsChain Chunk.CanPrecede := by
  rw [State.literal]
  split_ifs
  · exact h
  · refine List.isChain_cons.mpr ⟨?_, h⟩
    intro chunk hchunk hboth
    rw [hhead chunk hchunk] at hboth
    simp at hboth

/-- A scan never finds two literals next to each other, and inside of a group it finds the group
first. -/
theorem apart_run (s : State) (text : Text) :
    ((run s text).segments.map Segment.chunk).IsChain Chunk.CanPrecede ∧
      (0 < s.depth → ∀ chunk ∈ ((run s text).segments.map Segment.chunk).head?,
        chunk.isLiteral = false) := by
  induction text generalizing s with
  | nil =>
    rw [run]
    split_ifs with hdepth
    · exact ⟨.nil, by simp⟩
    · refine ⟨?_, fun h => absurd h hdepth⟩
      have hliteral := s.apart_literal .nil (by simp)
      rwa [List.append_nil] at hliteral
  | cons c rest ih =>
    obtain ⟨hrest, hgroup⟩ := ih (s.next c)
    rw [run_cons, List.map_append]
    by_cases hopen : s.Opens c
    · have hdepth : 0 < (s.next c).depth := by
        rw [State.depth_next, hopen.1, hopen.2, depth_opening]
        omega
      rw [hopen.step.1]
      refine ⟨s.apart_literal hrest (hgroup hdepth), fun h => ?_⟩
      rw [hopen.2] at h
      contradiction
    by_cases hclose : s.Closes c
    · rw [hclose.step.1]
      refine ⟨List.isChain_cons.mpr ⟨?_, hrest⟩, ?_⟩
      · simp [Chunk.CanPrecede, Segment.chunk, Chunk.isLiteral]
      · simp [Segment.chunk, Chunk.isLiteral]
    · obtain ⟨hfound, -, -, hside⟩ := State.step_of_neither hopen hclose
      rw [hfound]
      exact ⟨hrest, fun h => hgroup (hside.mpr h)⟩

end Scan

section Finds

variable {text tail : Text} {chunks : List Chunk}

theorem Finds.map_chunk (h : Finds (Scan.ofText text) 0 text chunks tail) :
    (Scan.ofText text).segments.map Segment.chunk = chunks := by
  rw [h.segments, map_chunk_place]

/-- A scan never finds two literals next to each other. -/
theorem Finds.apart (h : Finds (Scan.ofText text) 0 text chunks tail) :
    chunks.IsChain Chunk.CanPrecede := by
  rw [← h.map_chunk]
  exact (Scan.apart_run {} text).1

/-- In a text with matching braces a scan finds literals without braces. -/
theorem Finds.chunked (h : Finds (Scan.ofText text) 0 text chunks tail)
    (hbalanced : Balanced text) : Chunked chunks := by
  obtain ⟨hstrays, hclosed⟩ := hbalanced.scan_clean
  obtain ⟨others, hothers, rfl⟩ := exists_chunks hstrays hclosed
  rw [← h.map_chunk, ofText_spell hothers, map_chunk_place]
  exact hothers

end Finds

/-! ### Texts -/

/-- A text says what stands under its span. -/
def Node.IsLiteral (pattern : Text) (n : Node) : Prop :=
  ∃ value span, n = .text value span ∧ span.slice? pattern = some value

/-- A text is the inside of a group that is not recognized, which is reported. -/
structure KeptGroup (pattern value : Text) (span : Span) : Prop where
  slice : span.slice? pattern = some ('{' :: value ++ ['}'])
  reported : ⟨.unrecognizedGroup value, span⟩ ∈ (parse pattern).diagnostics

/-- The inside of a group is no literal, because there are braces under the span as well. -/
theorem Node.not_isLiteral_of_braces {pattern value : Text} {span : Span}
    (h : span.slice? pattern = some ('{' :: value ++ ['}'])) :
    ¬ (Node.text value span).IsLiteral pattern := by
  rintro ⟨_, _, hnode, hslice⟩
  obtain ⟨rfl, rfl⟩ := Node.text.inj hnode
  have hlength := congrArg List.length (Option.some_inj.mp (hslice.symm.trans h))
  simp only [List.length_append, List.length_cons] at hlength
  omega

/-- A text is read from a literal, or from a group that is not recognized. -/
theorem Chunk.of_read_text {chunk : Chunk} {offset : Nat} {value : Text} {span : Span}
    (h : (chunk.read offset).nodes = [.text value span]) :
    chunk = .literal value ∨
      chunk = .group value ∧
        (chunk.read offset).diagnostics = [⟨.unrecognizedGroup value, span⟩] := by
  cases chunk with
  | literal text =>
    obtain ⟨rfl, -⟩ := Node.text.inj (List.singleton_inj.mp h)
    exact .inl rfl
  | group content =>
    rw [Chunk.read, groupWith] at h
    split_ifs at h with hword hheader
    · simp at h
    · simp [Selection.nodeAt] at h
    · obtain ⟨rfl, rfl⟩ := Node.text.inj (List.singleton_inj.mp h)
      refine .inr ⟨rfl, ?_⟩
      simp only [Chunk.read, groupWith, if_neg hword, if_neg hheader]

section Places

variable {pattern value : Text} {span : Span} {offset : Nat} {chunk : Chunk}

/-- A chunk stands under the span of the node that it is read as. -/
theorem StandsAt.slice?_span {n : Node} (h : StandsAt pattern offset chunk.spell)
    (hread : (chunk.read offset).nodes = [n]) : n.span.slice? pattern = some chunk.spell := by
  obtain ⟨m, hnode, hspan⟩ := chunk.exists_node offset
  rw [hread] at hnode
  obtain rfl := List.singleton_inj.mp hnode
  rw [hspan]
  exact h.slice?

/-- Only a literal is read as one. -/
theorem StandsAt.isLiteral {n : Node} (h : StandsAt pattern offset chunk.spell)
    (hread : (chunk.read offset).nodes = [n]) (hliteral : n.IsLiteral pattern) :
    chunk.isLiteral = true := by
  obtain ⟨value, span, rfl, -⟩ := id hliteral
  rcases Chunk.of_read_text hread with rfl | ⟨rfl, -⟩
  · rfl
  · exact absurd hliteral (Node.not_isLiteral_of_braces (h.slice?_span hread))

/-- A text comes from a literal, or it is kept from a group. -/
theorem StandsAt.text_cases (h : StandsAt pattern offset chunk.spell)
    (hread : (chunk.read offset).nodes = [.text value span])
    (hsaid : (chunk.read offset).diagnostics ⊆ (parse pattern).diagnostics) :
    chunk = .literal value ∨ KeptGroup pattern value span := by
  rcases Chunk.of_read_text hread with rfl | ⟨rfl, hreport⟩
  · exact .inl rfl
  · refine .inr ⟨h.slice?_span hread, hsaid ?_⟩
    rw [hreport]
    exact List.mem_singleton_self _

/-- A text that is read from a chunk is a literal with characters, or kept from a group. -/
theorem ReadFrom.text_cases (h : ReadFrom pattern (.text value span)) :
    (value ≠ [] ∧ NeverOpens value) ∨ KeptGroup pattern value span := by
  obtain ⟨chunk, offset, hsettled, hstands, hread, hsaid⟩ := h
  rcases hstands.text_cases hread hsaid with rfl | hkept
  · exact .inl hsettled
  · exact .inr hkept

/-- Where the braces match, a text has none, unless it is kept from a group. -/
theorem LevelAt.text_cases {text : Text} (h : LevelAt pattern offset text)
    (hbalanced : Balanced text) (hmem : .text value span ∈ (parseAt text offset).nodes) :
    BraceFree value ∨ KeptGroup pattern value span := by
  obtain ⟨chunks, tail, hfinds⟩ := exists_finds text
  obtain ⟨chunk, hchunk, start, hstands, hread, hsaid⟩ := h.exists_chunk hfinds hmem
  rcases hstands.text_cases hread hsaid with rfl | hkept
  · exact .inl ((hfinds.chunked hbalanced).valid _ hchunk).2
  · exact .inr hkept

end Places

/-! ### Neighbours -/

/-- Two nodes can stand next to each other unless both are literals. -/
def Node.CanPrecede (pattern : Text) (a b : Node) : Prop :=
  ¬ (a.IsLiteral pattern ∧ b.IsLiteral pattern)

/-- Chunks without two literals next to each other are read as nodes without them. -/
theorem isChain_readChunks {pattern tail : Text} {offset : Nat} {chunks : List Chunk}
    (h : StandsAt pattern offset (spell chunks ++ tail))
    (hapart : chunks.IsChain Chunk.CanPrecede) :
    (readChunks offset chunks).nodes.IsChain (Node.CanPrecede pattern) := by
  induction chunks generalizing offset with
  | nil => exact .nil
  | cons chunk chunks ih =>
    rw [spell_cons, List.append_assoc] at h
    have hchunk : StandsAt pattern offset chunk.spell := @StandsAt.part _ _ _ [] _ h
    have hrest : StandsAt pattern (offset + width chunk.spell) (spell chunks ++ tail) := by
      rw [← List.append_nil (spell chunks ++ tail)] at h
      exact h.part
    obtain ⟨n, hnode, -⟩ := chunk.exists_node offset
    rw [readChunks, Parsed.append, hnode]
    refine List.isChain_cons.mpr ⟨?_, ih hrest hapart.tail⟩
    cases chunks with
    | nil => simp [readChunks]
    | cons next chunks =>
      obtain ⟨m, hnext, -⟩ := next.exists_node (offset + width chunk.spell)
      rw [spell_cons, List.append_assoc] at hrest
      have hstands : StandsAt pattern (offset + width chunk.spell) next.spell :=
        @StandsAt.part _ _ _ [] _ hrest
      rw [readChunks, Parsed.append, hnext]
      rintro _ ⟨rfl⟩ ⟨hfirst, hsecond⟩
      exact (List.isChain_cons_cons.mp hapart).1
        ⟨hchunk.isLiteral hnode hfirst, hstands.isLiteral hnext hsecond⟩

/-- A level has no two literals next to each other. -/
theorem LevelAt.isChain {pattern text : Text} {offset : Nat} (h : LevelAt pattern offset text) :
    (parseAt text offset).nodes.IsChain (Node.CanPrecede pattern) := by
  obtain ⟨chunks, tail, hfinds⟩ := exists_finds text
  have hstands := h.stands
  rw [hfinds.spelled] at hstands
  rw [parseAt_eq_readChunks hfinds, Parsed.append, List.nil_append]
  exact isChain_readChunks hstands hfinds.apart

/-! ### Bodies -/

/-- A list of nodes is the body of a case or the fallback of a select, at any depth. -/
def IsBody (nodes body : List Node) : Prop :=
  ∃ name cases fallback span, Within nodes (.select name cases fallback span) ∧
    ((∃ c ∈ cases, c.body = body) ∨ fallback = body)

/-- A body is a level of its own with matching braces, or takes the place of a missing fallback. -/
theorem IsBody.origin {pattern : Text} {body : List Node} (h : IsBody (parse pattern).nodes body) :
    (∃ offset text, LevelAt pattern offset text ∧ Balanced text ∧
        body = (parseAt text offset).nodes) ∨
      ∃ span, body = [.text [] span] := by
  obtain ⟨name, cases, fallback, span, hwithin, ⟨c, hc, rfl⟩ | rfl⟩ := h
  · obtain ⟨content, hselect⟩ := hwithin.exists_content
    obtain ⟨strip, harm, -, -, hbody⟩ := hselect.exists_case hc
    exact .inl ⟨_, _, harm.levelAt, harm.balanced, hbody⟩
  · obtain ⟨content, hselect⟩ := hwithin.exists_content
    rcases hselect.exists_fallback with ⟨_, strip, harm, -, -, -, hbody⟩ | hmissing
    · exact .inl ⟨_, _, harm.levelAt, harm.balanced, hbody⟩
    · exact .inr ⟨_, hmissing.eq⟩

theorem SelectAt.label_ne_other {pattern name content : Text} {cases : List Case}
    {fallback : List Node} {span : Span} (h : SelectAt pattern name cases fallback span content)
    {c : Case} (hc : c ∈ cases) : c.label ≠ other := by
  have hnode := h.node
  rw [selectionWith_eq, Selection.nodeAt, Node.select.injEq] at hnode
  rw [← hnode.2.1, ReadArm.cases, List.mem_map] at hc
  obtain ⟨arm, harm, rfl⟩ := hc
  exact of_decide_eq_true (List.mem_filter.mp harm).2

/-- A text stands in for the fallback of a select that has no arm for it. -/
def IsMissingText (pattern : Text) (nodes : List Node) (span : Span) : Prop :=
  ∃ name cases outer content, Within nodes (.select name cases [.text [] span] outer) ∧
    Span.slice? ⟨outer.start + 1, outer.stop - 1⟩ pattern = some content ∧
    LacksFallback name content

/-- What takes the place of a fallback does so because the select has no arm for it. -/
theorem IsMissingFallback.isMissingText {pattern : Text} {span : Span}
    (h : IsMissingFallback pattern (.text [] span)) :
    IsMissingText pattern (parse pattern).nodes span := by
  obtain ⟨name, cases, fallback, outer, hwithin, hmem, hmissing⟩ := h
  have hfallback := hmissing.eq
  rw [hfallback, List.mem_singleton] at hmem
  rw [← hmem] at hfallback
  rw [hfallback] at hwithin
  obtain ⟨front, content, back, hpattern, hspan, hfits⟩ := pointsInto_parse _ _ hmissing.reported
  refine ⟨name, cases, outer, content, hwithin, ?_, hfits.2.2.2⟩
  dsimp only at hspan
  rw [hspan, hpattern, Nat.zero_add]
  exact Span.slice?_append front content back

/-! ### The shape of nodes -/

/-- The shape of the nodes of a pattern. -/
structure WellShaped (pattern : Text) (nodes : List Node) : Prop where
  /-- Variables are words, at any depth. -/
  word : ∀ n name, Within nodes n → n.reads? = some name → IsWord name
  /-- The label of a case is not that of the fallback, and has no blanks around it and no braces. -/
  label : ∀ name cases fallback span, Within nodes (.select name cases fallback span) →
    ∀ c ∈ cases, c.label ≠ other ∧ trim c.label = c.label ∧ BraceFree c.label
  /-- A text in a body has no braces, unless it is kept from a group. -/
  inner : ∀ body, IsBody nodes body → ∀ value span, .text value span ∈ body →
    BraceFree value ∨ KeptGroup pattern value span
  /-- A text without characters is kept from a group, or stands in for a fallback. -/
  empty : ∀ span, Within nodes (.text [] span) →
    span.slice? pattern = some ['{', '}'] ∨ IsMissingText pattern nodes span
  /-- No list of nodes has two literals next to each other. -/
  apart : ∀ level, level = nodes ∨ IsBody nodes level → level.IsChain (Node.CanPrecede pattern)
  /-- In a literal at the outermost level, a brace closes before a brace opens. -/
  outer : ∀ value span, .text value span ∈ nodes → (Node.text value span).IsLiteral pattern →
    ∀ front back, value = front ++ '{' :: back → '}' ∈ front

theorem NeverOpens.mem_of_eq {value front back : Text} (h : NeverOpens value)
    (hvalue : value = front ++ '{' :: back) : '}' ∈ front := by
  have hdepth := h (front ++ ['{']) ⟨back, by simp [hvalue]⟩
  rw [depth_append, depth_opening, depth] at hdepth
  apply List.count_pos_iff.mp
  omega

/-- However malformed a pattern is, the nodes that are read from it have their shape. -/
theorem wellShaped_parse (pattern : Text) : WellShaped pattern (parse pattern).nodes := by
  have hlevel : LevelAt pattern 0 pattern := ⟨.refl pattern, List.Subset.refl _⟩
  constructor
  case word =>
    intro n name hwithin hname
    rcases hwithin.origin with hread | hmissing
    · exact hread.isWord hname
    · obtain ⟨span, rfl⟩ := hmissing.eq_text
      simp [Node.reads?] at hname
  case label =>
    intro name cases fallback span hwithin c hc
    obtain ⟨content, hselect⟩ := hwithin.exists_content
    obtain ⟨strip, harm, hlabel, -, -⟩ := hselect.exists_case hc
    refine ⟨hselect.label_ne_other hc, ?_, ?_⟩
    · rw [← hlabel, trim_trim]
    · intro d hd
      rw [← hlabel] at hd
      exact harm.braceFree d (mem_of_mem_trim hd)
  case inner =>
    intro body hbody value span hmem
    rcases hbody.origin with ⟨offset, text, hinner, hbalanced, rfl⟩ | ⟨place, rfl⟩
    · exact hinner.text_cases hbalanced hmem
    · obtain ⟨rfl, -⟩ := Node.text.inj (List.mem_singleton.mp hmem)
      exact .inl (by simp [BraceFree])
  case empty =>
    intro span hwithin
    rcases hwithin.origin with hread | hmissing
    · rcases hread.text_cases with ⟨hne, -⟩ | hkept
      · contradiction
      · exact .inl hkept.slice
    · exact .inr hmissing.isMissingText
  case apart =>
    rintro level (rfl | hbody)
    · exact hlevel.isChain
    · rcases hbody.origin with ⟨offset, text, hinner, -, rfl⟩ | ⟨place, rfl⟩
      · exact hinner.isChain
      · exact .singleton _
  case outer =>
    intro value span hmem hliteral front back hvalue
    rcases (hlevel.readFrom hmem).text_cases with ⟨-, hopens⟩ | hkept
    · exact hopens.mem_of_eq hvalue
    · exact absurd hliteral (Node.not_isLiteral_of_braces hkept.slice)

end Pattern

end Phrasebook
