import Phrasebook.Proofs.Pattern.Braces
import Phrasebook.Proofs.Pattern.Locality
import Phrasebook.Proofs.Pattern.Steps
import Mathlib.Data.List.Infix

/-!
# Groups on their own

A select is read in two ways: as the group that it is in a pattern, or by itself, without the braces
around it. Both give the same select, only that a group starts one byte earlier. A group with
matching braces that is not a select is a placeholder, or it is kept as text.
-/

namespace Phrasebook.Pattern

open Text

/-! ### Counting braces -/

/-- The level after a text is found by counting, if no front of it closes more than is open. -/
theorem level_of_forall_prefix {text : Text} {before after : Nat}
    (hfronts : ∀ front, front <+: text → 0 ≤ before + depth front)
    (htotal : before + depth text = after) : level before text = some after := by
  induction text generalizing before with
  | nil =>
    rw [depth_nil, Int.add_zero, Int.natCast_inj] at htotal
    rw [level, htotal]
  | cons c rest ih =>
    rw [depth_cons] at htotal
    have hrest : ∀ front, front <+: rest → 0 ≤ before + (depth [c] + depth front) := by
      intro front hfront
      rw [← depth_cons]
      exact hfronts (c :: front) (List.cons_prefix_cons.mpr ⟨rfl, hfront⟩)
    have hfirst : 0 ≤ before + depth [c] := by simpa using hrest [] List.nil_prefix
    have hnext (next : Nat) (hstep : (next : Int) = before + depth [c]) :
        level next rest = some after := by
      refine ih (fun front hfront => ?_) ?_
      · have hcount := hrest front hfront
        omega
      · omega
    by_cases hopen : c = '{'
    · simp only [level, if_pos hopen]
      exact hnext (before + 1) (by rw [hopen, depth_opening]; rfl)
    by_cases hclose : c = '}'
    · rw [hclose, depth_closing] at hfirst
      cases before with
      | zero => omega
      | succ before =>
        simp only [level, if_neg hopen, if_pos hclose]
        exact hnext before (by rw [hclose, depth_closing]; omega)
    · simp only [level, if_neg hopen, if_neg hclose]
      exact hnext before (by rw [depth_other hopen hclose, Int.add_zero])

/-- Braces match if no front of a text closes more than it opens, and the whole text closes all. -/
theorem balanced_of_count {text : Text}
    (hfronts : ∀ front, front <+: text → front.count '}' ≤ front.count '{')
    (htotal : text.count '{' = text.count '}') : Balanced text := by
  refine level_of_forall_prefix (fun front hfront => ?_) ?_
  · have hcount := hfronts front hfront
    rw [depth]
    omega
  · rw [depth]
    omega

/-! ### Groups -/

/-- A content with braces around it. -/
def braced (content : Text) : Text := '{' :: content ++ ['}']

/-- A content is a word with any blanks around it. -/
def IsPaddedName (content : Text) : Prop :=
  ∃ before name after, Blank before ∧ IsWord name ∧ Blank after ∧ content = before ++ name ++ after

/-- A selection with all of its spans moved right. -/
def Selection.shift (distance : Nat) (s : Selection) : Selection where
  name := s.name
  cases := shiftCases distance s.cases
  fallback := shiftNodes distance s.fallback
  span := s.span.shift distance

/-- A group with matching braces is read as its content is. -/
theorem parse_braced {content : Text} (h : Balanced content) :
    parse (braced content) = groupWith parseAt content ⟨0, width content + 2⟩ := by
  have hsettled : (Chunk.group content).Settled := h
  have hscan := h.braces.scan_diagnostics 0
  have hread := parseAt_eq_readChunks hsettled.finds 0
  rw [Chunk.spell, hscan] at hread
  rw [parse, braced, hread]
  simp [Parsed.append, readChunks, Chunk.read]

/-- Inside of a group, a select is what it is by itself, one byte further on. -/
theorem nodeAt_selectionWith (content : Text) (span : Span) :
    (selectionWith parseAt content 1).1.nodeAt span =
      ((parseSelection content).shift 1).nodeAt span := by
  have hmoved :=
    (selectionWith_add (fun inner start => parseAt_add inner start 1) content 0 span).1
  obtain ⟨hname, hcases, hfallback, -⟩ := Node.select.inj hmoved
  rw [Nat.zero_add] at hname hcases hfallback
  rw [Selection.nodeAt, hname, hcases, hfallback]
  rfl

section Kinds

variable {content : Text} (span : Span)

theorem groupWith_of_isPaddedWord (h : isPaddedWord content = true) :
    groupWith parseAt content span = { nodes := [.placeholder (trim content) span] } := by
  rw [groupWith, if_pos h]

theorem nodes_groupWith_of_isSelect (h : isSelect content = true) :
    (groupWith parseAt content span).nodes =
      [(selectionWith parseAt content (span.start + 1)).1.nodeAt span] := by
  rw [isSelect, Bool.and_eq_true, Bool.not_eq_true'] at h
  rw [groupWith, if_neg (by simp [h.1]), if_pos h.2]

theorem groupWith_of_neither (hword : isPaddedWord content = false) (h : isSelect content = false) :
    groupWith parseAt content span =
      { nodes := [.text content span], diagnostics := [⟨.unrecognizedGroup content, span⟩] } := by
  rw [isSelect, hword, Bool.not_false, Bool.true_and] at h
  rw [groupWith, if_neg (by simp [hword]), if_neg (by simp [h])]

end Kinds

theorem isSelect_of_isPaddedWord {content : Text} (h : isPaddedWord content = true) :
    isSelect content = false := by
  rw [isSelect, h]
  rfl

/-- A group with matching braces is read as a single node. The node is a select exactly if the
content is one, and then it is what the content is read as by itself, one byte further on. It is
a placeholder exactly if the content is a word with blanks around it. Otherwise it is the content as
text, and that is all that is said about it. In general, what is read from a text moves along with
the text. -/
theorem group_agrees_with_selection (content : Text)
    (hfronts : ∀ front, front <+: content → front.count '}' ≤ front.count '{')
    (htotal : content.count '{' = content.count '}') :
    (∃ node, (parse (braced content)).nodes = [node]) ∧
    ((∃ name cases fallback span,
        (parse (braced content)).nodes = [.select name cases fallback span]) ↔
      isSelect content = true) ∧
    (isSelect content = true →
      (parse (braced content)).nodes =
        [((parseSelection content).shift 1).nodeAt ⟨0, width content + 2⟩]) ∧
    ((∃ name span, (parse (braced content)).nodes = [.placeholder name span]) ↔
      IsPaddedName content) ∧
    (IsPaddedName content →
      (parse (braced content)).nodes = [.placeholder (trim content) ⟨0, width content + 2⟩]) ∧
    (isSelect content = false → ¬ IsPaddedName content →
      parse (braced content) =
        ⟨[.text content ⟨0, width content + 2⟩],
          [⟨.unrecognizedGroup content, ⟨0, width content + 2⟩⟩]⟩) ∧
    ∀ body base, parseAt body base = (parse body).shift base := by
  have hmoves (body : Text) (base : Nat) : parseAt body base = (parse body).shift base := by
    rw [parse, ← parseAt_add, Nat.zero_add]
  have hword : isPaddedWord content = true ↔ IsPaddedName content := isPaddedWord_iff
  rw [parse_braced (balanced_of_count hfronts htotal), ← hword]
  cases hpadded : isPaddedWord content with
  | true =>
    rw [groupWith_of_isPaddedWord _ hpadded, isSelect_of_isPaddedWord hpadded]
    simp [hmoves]
  | false =>
    cases hselect : isSelect content with
    | true =>
      rw [nodes_groupWith_of_isSelect _ hselect, nodeAt_selectionWith]
      simp [Selection.nodeAt, hmoves]
    | false =>
      rw [groupWith_of_neither _ hpadded hselect]
      simp [hmoves]

/-- A select with a select inside, and no fallback of its own. -/
def nestedContent : Text := "a,select,x\x7b\x7bb,select,other\x7bü\x7d\x7d\x7d"

theorem group_agrees_with_selection_nested :
    (∀ front, front <+: nestedContent → front.count '}' ≤ front.count '{') ∧
    nestedContent.count '{' = nestedContent.count '}' ∧
    (parse (braced nestedContent)).nodes =
      [((parseSelection nestedContent).shift 1).nodeAt ⟨0, 34⟩] ∧
    (parseSelection nestedContent).fallback = [.text [] ⟨32, 32⟩] := by
  have hfronts : ∀ front, front <+: nestedContent → front.count '}' ≤ front.count '{' := by
    simp only [← List.mem_inits]
    decide
  have htotal : nestedContent.count '{' = nestedContent.count '}' := by decide
  refine ⟨hfronts, htotal, ?_, by decide +kernel⟩
  exact (group_agrees_with_selection nestedContent hfronts htotal).2.2.1 (by decide)

end Phrasebook.Pattern
