import Phrasebook.Proofs.Pattern.Braces

/-!
# Nodes cover their patterns

Nothing is lost between the nodes of a pattern and nothing belongs to two of them. At the outermost
level the nodes cover the pattern up to its end, or up to the brace that is reported as never
closed. Inside of a select, the nodes of a body cover all that stands between the braces of its arm.
-/

namespace Phrasebook.Pattern

open Text

/-- The spans of nodes follow each other without a gap, from one offset to another. -/
def Contiguous (first last : Nat) : List Node → Prop
  | [] => first = last
  | n :: rest => n.span.start = first ∧ Contiguous n.span.stop last rest

/-- Nodes cover a text that stands in a pattern from an offset on: their spans follow each other
from the start of the text to its end, and the texts under the spans make up the text. -/
structure Covers (pattern : Text) (offset : Nat) (text : Text) (nodes : List Node) : Prop where
  contiguous : Contiguous offset (offset + width text) nodes
  slices : ∃ parts : List Text, nodes.map (fun n => n.span.slice? pattern) = parts.map some ∧
    parts.flatten = text

/-- A body covers all that stands between an opening brace at an offset and the brace that matches
it. -/
structure FillsBraces (pattern : Text) (opening : Nat) (content : Text) (body : List Node) :
    Prop where
  opened : Span.slice? ⟨opening, opening + 1⟩ pattern = some ['{']
  closed : Span.slice? ⟨opening + 1 + width content, opening + 1 + width content + 1⟩ pattern =
    some ['}']
  balanced : Balanced content
  covers : Covers pattern (opening + 1) content body

/-- A label with blanks around it and a group stand under a span, and a body fills the group. -/
def FilledArm (pattern : Text) (span : Span) (label : Text) (body : List Node) : Prop :=
  ∃ padded content, span.slice? pattern = some (padded ++ ('{' :: content ++ ['}'])) ∧
    BraceFree padded ∧ trim padded = label ∧
    FillsBraces pattern (span.start + width padded) content body

/-! ### Levels -/

/-- The nodes of chunks cover what the chunks spell. -/
theorem covers_readChunks {pattern tail : Text} {offset : Nat} {chunks : List Chunk}
    (h : StandsAt pattern offset (spell chunks ++ tail)) :
    Covers pattern offset (spell chunks) (readChunks offset chunks).nodes := by
  induction chunks generalizing offset with
  | nil => exact ⟨rfl, [], rfl, rfl⟩
  | cons chunk chunks ih =>
    rw [spell_cons, List.append_assoc] at h
    have hchunk : StandsAt pattern offset chunk.spell := @StandsAt.part _ _ _ [] _ h
    have hrest : StandsAt pattern (offset + width chunk.spell) (spell chunks ++ tail) := by
      rw [← List.append_nil (spell chunks ++ tail)] at h
      exact h.part
    obtain ⟨n, hnode, hspan⟩ := chunk.exists_node offset
    obtain ⟨hcontiguous, parts, hparts, hflatten⟩ := ih hrest
    rw [readChunks, Parsed.append, hnode, List.singleton_append, spell_cons]
    refine ⟨⟨?_, ?_⟩, chunk.spell :: parts, ?_, ?_⟩
    · rw [hspan]
    · rwa [hspan, width_append, ← Nat.add_assoc]
    · rw [List.map_cons, List.map_cons, hparts, hspan, hchunk.slice?]
    · rw [List.flatten_cons, hflatten]

/-- The nodes of a text with matching braces cover the text. -/
theorem Balanced.covers {pattern text : Text} {offset : Nat} (h : Balanced text)
    (hstands : StandsAt pattern offset text) :
    Covers pattern offset text (parseAt text offset).nodes := by
  obtain ⟨chunks, tail, hfinds⟩ := exists_finds text
  have htail : tail = [] := by
    by_contra htail
    have hopen := hfinds.unterminated
    rw [h.scan_clean.2, if_neg htail] at hopen
    contradiction
  have hspelled := hfinds.spelled
  rw [htail, List.append_nil] at hspelled
  rw [parseAt_eq_readChunks hfinds, Parsed.append, List.nil_append]
  have hchunks : StandsAt pattern offset (spell chunks ++ []) := by
    rwa [List.append_nil, ← hspelled]
  have hcovers := covers_readChunks hchunks
  rwa [← hspelled] at hcovers

/-- The body of an arm fills it. -/
theorem ArmAt.filledArm {pattern label : Text} {offset stop : Nat} {strip : Strip}
    (h : ArmAt pattern offset strip) (hlabel : trim strip.label = label)
    (hstop : stop = offset + width strip.spell) :
    FilledArm pattern ⟨offset, stop⟩ label
      (parseAt strip.content (offset + strip.inner)).nodes := by
  have hbrace : width ['{'] = 1 ∧ width ['}'] = 1 := ⟨rfl, rfl⟩
  have hstands := h.stands
  have hopened : StandsAt pattern (offset + width strip.label) ['{'] := by
    have hparts : strip.spell = strip.label ++ (['{'] ++ (strip.content ++ ['}'])) := by
      simp [Strip.spell]
    rw [hparts] at hstands
    exact hstands.part
  have hclosed : StandsAt pattern (offset + width strip.label + 1 + width strip.content) ['}'] := by
    have hparts : strip.spell = (strip.label ++ ['{'] ++ strip.content) ++ (['}'] ++ []) := by
      simp [Strip.spell]
    rw [hparts] at hstands
    have hpart := hstands.part
    rwa [width_append, width_append, hbrace.1, ← Nat.add_assoc, ← Nat.add_assoc] at hpart
  refine ⟨strip.label, strip.content, ?_, h.braceFree, hlabel, ?_⟩
  · rw [hstop]
    exact h.stands.slice?
  · refine ⟨?_, ?_, h.balanced, h.balanced.covers h.levelAt.stands⟩
    · have hslice := hopened.slice?
      rwa [hbrace.1] at hslice
    · have hslice := hclosed.slice?
      rwa [hbrace.2] at hslice

/-! ### The outermost level -/

/-- What is said about braces that are never closed: nothing, or where the nodes end. -/
theorem filter_unterminated_parse {pattern tail : Text} {chunks : List Chunk}
    (h : Finds (Scan.ofText pattern) 0 pattern chunks tail) :
    (parse pattern).diagnostics.filter (fun d => d.problem = .unterminatedBrace) =
      if tail = [] then []
      else [⟨.unterminatedBrace, ⟨width (spell chunks), width pattern⟩⟩] := by
  have hsplit : (parse pattern).diagnostics.filter (fun d => d.problem = .unterminatedBrace) =
      ((parse pattern).diagnostics.filter fun d => d.problem.isUnmatched).filter
        fun d => d.problem = .unterminatedBrace := by
    rw [List.filter_filter]
    refine List.filter_congr fun d _ => ?_
    cases d.problem <;> simp [Problem.isUnmatched]
  rw [hsplit, filter_isUnmatched_parse, Scan.diagnostics, h.unterminated]
  split_ifs with htail
  · simp
  · simp [Span.shift]

/-- The nodes of a pattern cover it up to its end, or up to the brace that is reported as never
closed. At any depth, the body of a case fills its arm, and so does a fallback, unless it is
missing. -/
theorem parse_covers (pattern : Text) :
    (∃ covered tail, pattern = covered ++ tail ∧ Covers pattern 0 covered (parse pattern).nodes ∧
        (parse pattern).diagnostics.filter (fun d => d.problem = .unterminatedBrace) =
          if tail = [] then []
          else [⟨.unterminatedBrace, ⟨width covered, width pattern⟩⟩]) ∧
      ∀ name cases fallback span,
        Within (parse pattern).nodes (.select name cases fallback span) →
          (∀ c ∈ cases, FilledArm pattern c.span c.label c.body) ∧
            ((∃ arm : Span, span.start < arm.start ∧ arm.stop < span.stop ∧
                FilledArm pattern arm other fallback) ∨
              FallbackMissing pattern name fallback span) := by
  constructor
  · obtain ⟨chunks, tail, hfinds⟩ := exists_finds pattern
    refine ⟨spell chunks, tail, hfinds.spelled, ?_, filter_unterminated_parse hfinds⟩
    have hstands : StandsAt pattern 0 (spell chunks ++ tail) := by
      rw [← hfinds.spelled]
      exact .refl pattern
    rw [parse, parseAt_eq_readChunks hfinds, Parsed.append, List.nil_append]
    exact covers_readChunks hstands
  · intro name cases fallback span hwithin
    obtain ⟨content, hselect⟩ := hwithin.exists_content
    constructor
    · intro c hc
      obtain ⟨strip, harm, hlabel, hstop, hbody⟩ := hselect.exists_case hc
      rw [hbody]
      exact harm.filledArm hlabel hstop
    · rcases hselect.exists_fallback with
        ⟨offset, strip, harm, hstart, hstop, hlabel, rfl⟩ | hmissing
      · exact .inl ⟨⟨offset, _⟩, hstart, hstop, harm.filledArm hlabel rfl⟩
      · exact .inr hmissing

/-- A case, a fallback with two nodes, and a brace that is never closed. -/
def tornPattern : Text := "\x7ba,select,x\x7by\x7d other\x7bü\x7bb\x7d\x7d\x7d\x7bc"

/-- The case in `tornPattern`. -/
def tornCase : Case := ⟨"x", [.text "y" ⟨12, 13⟩], ⟨10, 14⟩⟩

/-- The fallback in `tornPattern`. -/
def tornFallback : List Node := [.text "ü" ⟨21, 23⟩, .placeholder "b" ⟨23, 26⟩]

theorem parse_covers_torn :
    Within (parse tornPattern).nodes (.select "a" [tornCase] tornFallback ⟨0, 28⟩) ∧
      FilledArm tornPattern ⟨10, 14⟩ "x" [.text "y" ⟨12, 13⟩] ∧
      ∃ arm : Span, 0 < arm.start ∧ arm.stop < 28 ∧
        FilledArm tornPattern arm other tornFallback := by
  have hnodes : (parse tornPattern).nodes = [.select "a" [tornCase] tornFallback ⟨0, 28⟩] := by
    decide +kernel
  have hwithin : Within (parse tornPattern).nodes
      (.select "a" [tornCase] tornFallback ⟨0, 28⟩) :=
    .top (by simp [hnodes])
  obtain ⟨hcases, hfallback⟩ := (parse_covers tornPattern).2 _ _ _ _ hwithin
  refine ⟨hwithin, hcases tornCase List.mem_cons_self, hfallback.resolve_right fun hmissing => ?_⟩
  simpa [tornFallback] using hmissing.eq

end Phrasebook.Pattern
