import Phrasebook.Proofs.Pattern.Places
import Phrasebook.Proofs.Pattern.Shifting

/-!
# Reading is local

The span of a node is enough to find the node again: the text under the span, read as a pattern of
its own, is that one node, and only its place differs. The same holds of the body of a case and the
text between its braces. So a nested node is read as if nothing stood around it, however malformed
the pattern is.
-/

namespace Phrasebook.Pattern

open Text

/-- The text under the span of a node is read as that node alone. All spans inside of the node are
counted from its start then. -/
def Node.IsLocal (pattern : Text) (n : Node) : Prop :=
  ∃ source m, n.span.slice? pattern = some source ∧ (parse source).nodes = [m] ∧
    m.shift n.span.start = n

/-- The span of a case covers its label and a group, and the text inside of the group is read as the
body. All spans inside of the body are counted from the start of that text then. -/
def Case.IsLocal (pattern : Text) (c : Case) : Prop :=
  ∃ label content, c.span.slice? pattern = some (label ++ ('{' :: content ++ ['}'])) ∧
    BraceFree label ∧ Balanced content ∧ trim label = c.label ∧
    shiftNodes (c.span.start + (width label + 1)) (parse content).nodes = c.body

/-- A chunk is read as the node that its spelling is read as. -/
theorem Chunk.Settled.nodes_parseAt {chunk : Chunk} (h : chunk.Settled) (base : Nat) :
    (parseAt chunk.spell base).nodes = (chunk.read base).nodes := by
  rw [parseAt_eq_readChunks h.finds]
  simp [Parsed.append, readChunks]

/-- Nodes that are read elsewhere are the nodes that are read at the start, moved. -/
theorem nodes_parseAt (text : Text) (offset : Nat) :
    (parseAt text offset).nodes = shiftNodes offset (parse text).nodes := by
  rw [parse, ← Nat.zero_add offset, parseAt_add, Nat.zero_add]
  rfl

/-- What a chunk is read as is local. -/
theorem ReadFrom.isLocal {pattern : Text} {n : Node} (h : ReadFrom pattern n) :
    n.IsLocal pattern := by
  obtain ⟨chunk, offset, hsettled, hstands, hread, -⟩ := h
  obtain ⟨node, hnode, hspan⟩ := chunk.exists_node offset
  obtain rfl : node = n := by
    rw [hread] at hnode
    exact (List.singleton_inj.mp hnode).symm
  obtain ⟨m, hm, -⟩ := chunk.exists_node 0
  have hparse : (parse chunk.spell).nodes = [m] := by
    rw [parse, hsettled.nodes_parseAt, hm]
  refine ⟨chunk.spell, m, ?_, hparse, ?_⟩
  · rw [hspan]
    exact hstands.slice?
  · have hmoved := nodes_parseAt chunk.spell offset
    rw [hsettled.nodes_parseAt, hread, hparse, shiftNodes, shiftNodes] at hmoved
    rw [hspan]
    exact (List.singleton_inj.mp hmoved).symm

/-- The cases of a select are local. -/
theorem SelectAt.isLocal_case {pattern name content : Text} {cases : List Case}
    {fallback : List Node} {span : Span}
    (h : SelectAt pattern name cases fallback span content) {c : Case} (hc : c ∈ cases) :
    c.IsLocal pattern := by
  obtain ⟨strip, harm, hlabel, hstop, hbody⟩ := h.exists_case hc
  refine ⟨strip.label, strip.content, ?_, harm.braceFree, harm.balanced, hlabel, ?_⟩
  · have hslice := harm.stands.slice?
    rwa [← hstop] at hslice
  · rw [hbody, nodes_parseAt]
    rfl

/-- All nodes of a pattern are local, at any depth, and so are all cases. The only exception is what
takes the place of a missing fallback, which does not stand in the pattern. -/
theorem parse_isLocal (pattern : Text) :
    (∀ n, Within (parse pattern).nodes n → ¬ IsMissingFallback pattern n → n.IsLocal pattern) ∧
      ∀ name cases fallback span,
        Within (parse pattern).nodes (.select name cases fallback span) →
          ∀ c ∈ cases, c.IsLocal pattern := by
  constructor
  · intro n hwithin hpresent
    exact (hwithin.origin.resolve_right hpresent).isLocal
  · intro name cases fallback span hwithin c hc
    obtain ⟨content, hselect⟩ := hwithin.exists_content
    exact hselect.isLocal_case hc

/-- A placeholder in a case, after a character of two bytes, and no fallback. -/
def nestedPattern : Text := "ü\x7ba,select,x\x7b\x7bb\x7d\x7d\x7d"

/-- The case of `nestedPattern`. -/
def nestedCase : Case := ⟨"x", [.placeholder "b" ⟨14, 17⟩], ⟨12, 18⟩⟩

theorem parse_isLocal_nested :
    Within (parse nestedPattern).nodes (.placeholder "b" ⟨14, 17⟩) ∧
      Node.IsLocal nestedPattern (.placeholder "b" ⟨14, 17⟩) ∧
      Case.IsLocal nestedPattern nestedCase := by
  have hnodes : (parse nestedPattern).nodes =
      [.text "ü" ⟨0, 2⟩, .select "a" [nestedCase] [.text [] ⟨18, 18⟩] ⟨2, 19⟩] := by
    decide +kernel
  have hselect : Within (parse nestedPattern).nodes
      (.select "a" [nestedCase] [.text [] ⟨18, 18⟩] ⟨2, 19⟩) :=
    .top (by simp [hnodes])
  have hwithin : Within (parse nestedPattern).nodes (.placeholder "b" ⟨14, 17⟩) :=
    .inCase hselect List.mem_cons_self List.mem_cons_self
  refine ⟨hwithin, (parse_isLocal nestedPattern).1 _ hwithin ?_,
    (parse_isLocal nestedPattern).2 _ _ _ _ hselect _ List.mem_cons_self⟩
  intro hmissing
  obtain ⟨_, htext⟩ := hmissing.eq_text
  contradiction

end Phrasebook.Pattern
