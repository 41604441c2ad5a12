import Phrasebook.Proofs.Lists
import Phrasebook.Proofs.Pattern.Shifting
import Phrasebook.Proofs.Pattern.Steps
import Phrasebook.Proofs.Template.Variables

/-!
# Compiling texts one after the other

If a text has as many opening as closing braces, a scan goes on behind it as if it started there,
except that a literal may reach over from one text into the other. To a template this makes no
difference: the two halves of a literal are written one after the other anyway. So whatever is read
off nodes one by one, without regard to where they stand and with literals cut anywhere, is read off
two such texts one after the other.
-/

namespace Phrasebook

namespace Pattern

open Text

/-! ### Gathering from scans -/

/-- What a segment amounts to, given what literals and contents of groups amount to. -/
def Segment.gather {α : Type} (literal group : Text → List α) : Segment → List α
  | .literal text _ => literal text
  | .group content _ => group content

namespace Scan

/-- Outside of all groups, a scan holds some characters that another one does not hold. Else both
scans hold the same. -/
structure State.Ahead (front : Text) (s other : State) : Prop where
  depth : s.depth = other.depth
  outside : s.depth ≤ 0 → s.held.reverse = front ++ other.held.reverse
  inside : 0 < s.depth → s.held = other.held

section Gather

variable {α : Type} {literal group : Text → List α}
  (hliteral : ∀ x y, literal (x ++ y) = literal x ++ literal y)

include hliteral

theorem literal_nil : literal [] = [] := by
  have hnil := hliteral [] []
  rwa [List.nil_append, List.self_eq_append_right] at hnil

theorem gather_literal (s : State) :
    s.literal.flatMap (Segment.gather literal group) = literal s.held.reverse := by
  rw [State.literal]
  split_ifs with hempty
  · rw [List.isEmpty_iff.mp hempty, List.reverse_nil, literal_nil hliteral]
    rfl
  · simp [Segment.gather]

/-- What a scan holds more than another one is gathered in front, and nothing else differs. -/
theorem gather_run_ahead {front : Text} {s other : State} (h : s.Ahead front other) (text : Text) :
    (run s text).segments.flatMap (Segment.gather literal group) =
      (if s.depth ≤ 0 then literal front else []) ++
        (run other text).segments.flatMap (Segment.gather literal group) := by
  induction text generalizing front s other with
  | nil =>
    rw [run, run, ← h.depth]
    by_cases hdepth : 0 < s.depth
    · rw [if_pos hdepth, if_pos hdepth, if_neg (by omega)]
      rfl
    · rw [if_neg hdepth, if_neg hdepth, if_pos (by omega), gather_literal hliteral,
        gather_literal hliteral, h.outside (by omega), hliteral]
  | cons c text ih =>
    rw [run_cons, run_cons, List.flatMap_append, List.flatMap_append]
    have hdepth : (s.next c).depth = (other.next c).depth := by
      rw [State.depth_next, State.depth_next, h.depth]
    by_cases hopen : s.Opens c
    · have hopen' : other.Opens c := ⟨hopen.1, h.depth ▸ hopen.2⟩
      obtain ⟨hfound, -, hheld⟩ := hopen.step
      obtain ⟨hfound', -, hheld'⟩ := hopen'.step
      have hnext : (s.next c).Ahead [] (other.next c) :=
        ⟨hdepth, fun _ => by rw [hheld, hheld']; rfl, fun _ => by rw [hheld, hheld']⟩
      rw [ih hnext, literal_nil hliteral, ite_self, List.nil_append, hfound, hfound',
        gather_literal hliteral, gather_literal hliteral, if_pos (Int.le_of_eq hopen.2),
        h.outside (Int.le_of_eq hopen.2), hliteral, List.append_assoc]
    by_cases hclose : s.Closes c
    · have hinside : 0 < s.depth := by
        rw [hclose.2]
        omega
      have hclose' : other.Closes c := ⟨hclose.1, h.depth ▸ hclose.2⟩
      obtain ⟨hfound, hheld⟩ := hclose.step
      obtain ⟨hfound', hheld'⟩ := hclose'.step
      have hnext : (s.next c).Ahead [] (other.next c) :=
        ⟨hdepth, fun _ => by rw [hheld, hheld']; rfl, fun _ => by rw [hheld, hheld']⟩
      rw [ih hnext, literal_nil hliteral, ite_self, List.nil_append, hfound, hfound',
        if_neg (by omega), h.inside hinside]
      rfl
    · have hopen' : ¬ other.Opens c := fun hopens => hopen ⟨hopens.1, h.depth ▸ hopens.2⟩
      have hclose' : ¬ other.Closes c := fun hcloses => hclose ⟨hcloses.1, h.depth ▸ hcloses.2⟩
      obtain ⟨hfound, -, hheld, hside⟩ := State.step_of_neither hopen hclose
      obtain ⟨hfound', -, hheld', -⟩ := State.step_of_neither hopen' hclose'
      have hnext : (s.next c).Ahead front (other.next c) := by
        refine ⟨hdepth, fun houtside => ?_, fun hinside => ?_⟩
        · rw [hheld, hheld', List.reverse_cons, List.reverse_cons, h.outside (by omega),
            List.append_assoc]
        · rw [hheld, hheld', h.inside (hside.mp hinside)]
      rw [ih hnext, hfound, hfound', List.flatMap_nil, List.nil_append, List.nil_append]
      exact congrArg (· ++ _) (if_congr (by omega) rfl rfl)

/-- Behind a text with as many opening as closing braces, a scan goes on as if it started there. -/
theorem gather_run_append {s : State} {a : Text} (h : s.depth + Pattern.depth a = 0) (b : Text) :
    (run s (a ++ b)).segments.flatMap (Segment.gather literal group) =
      (run s a).segments.flatMap (Segment.gather literal group) ++
        (run {} b).segments.flatMap (Segment.gather literal group) := by
  induction a generalizing s with
  | nil =>
    rw [depth_nil, Int.add_zero] at h
    -- The literal that crosses the border is one segment on the left and two on the right.
    have hahead : s.Ahead s.held.reverse {} := ⟨h, fun _ => by simp, fun hinside => by omega⟩
    rw [List.nil_append, gather_run_ahead hliteral hahead, if_pos (by omega), run,
      if_neg (by omega), gather_literal hliteral]
  | cons c a ih =>
    rw [depth_cons] at h
    rw [List.cons_append, run_cons, run_cons, List.flatMap_append, List.flatMap_append,
      ih (by rw [State.depth_next]; omega), List.append_assoc]

end Gather

/-- Nothing is found inside of a group that is never closed. -/
theorem segments_run_of_level {s : State} {text : Text} {inner after : Nat}
    (hdepth : s.depth = inner + 1) (h : level inner text = some after) :
    (run s text).segments = [] := by
  induction text generalizing s inner with
  | nil => rw [run, if_pos (by omega)]
  | cons c text ih =>
    have hopen : ¬ s.Opens c := fun hopen => by
      have hzero := hopen.2
      omega
    have hclose : ¬ s.Closes c := by
      rintro ⟨rfl, hone⟩
      obtain rfl : inner = 0 := by omega
      simp [level] at h
    rw [run_cons, (State.step_of_neither hopen hclose).1, List.nil_append]
    by_cases hc : c = '{'
    · subst hc
      simp only [level, if_true] at h
      refine ih ?_ h
      rw [State.depth_next, depth_opening, hdepth]
      omega
    by_cases hc' : c = '}'
    · subst hc'
      cases inner with
      | zero => simp [level] at h
      | succ inner =>
        simp only [level, if_neg hc, if_true] at h
        refine ih ?_ h
        rw [State.depth_next, depth_closing, hdepth]
        omega
    · simp only [level, if_neg hc, if_neg hc'] at h
      refine ih ?_ h
      rw [State.depth_next, depth_other hc hc', hdepth, Int.add_zero]

end Scan

/-! ### Nodes without their places -/

mutual
theorem Node.unplaced_shift (distance : Nat) (n : Node) :
    (n.shift distance).unplaced = n.unplaced := by
  match n with
  | .text _ _ => rfl
  | .placeholder _ _ => rfl
  | .select name cases fallback _ =>
    rw [Node.shift, Node.unplaced, Node.unplaced, unplacedCases_shift, unplacedNodes_shift]

theorem unplacedNodes_shift (distance : Nat) (nodes : List Node) :
    unplacedNodes (shiftNodes distance nodes) = unplacedNodes nodes := by
  match nodes with
  | [] => rfl
  | node :: rest =>
    rw [shiftNodes, unplacedNodes, unplacedNodes, node.unplaced_shift, unplacedNodes_shift]

theorem unplacedCases_shift (distance : Nat) (cases : List Case) :
    unplacedCases (shiftCases distance cases) = unplacedCases cases := by
  match cases with
  | [] => rfl
  | ⟨label, body, _⟩ :: rest =>
    rw [shiftCases, unplacedCases, unplacedCases, unplacedNodes_shift, unplacedCases_shift]
end

theorem unplacedNodes_eq_map (nodes : List Node) :
    unplacedNodes nodes = nodes.map Node.unplaced := by
  induction nodes with
  | nil => rfl
  | cons node rest ih => rw [unplacedNodes, ih, List.map_cons]

/-- The node of a group without its place. -/
def groupNodes (content : Text) : List Node :=
  unplacedNodes (groupWith parseAt content nowhere).nodes

/-- Where a group stands has no influence on what it is read as. -/
theorem unplacedNodes_groupWith (content : Text) (span : Span) :
    unplacedNodes (groupWith parseAt content span).nodes = groupNodes content := by
  have hbody (inner : Text) (start : Nat) :
      parseAt inner (start + span.start) = (parseAt inner start).shift span.start :=
    parseAt_add inner start span.start
  have hstart : nowhere.start + 1 + span.start = span.start + 1 := by
    rw [show nowhere.start = 0 from rfl]
    omega
  -- A select is read at its place as it is read nowhere, moved by the start of the place.
  obtain ⟨hmoved, -⟩ := selectionWith_add hbody content (nowhere.start + 1) nowhere
  rw [hstart] at hmoved
  have hselect : ((selectionWith parseAt content (span.start + 1)).1.nodeAt span).unplaced =
      ((selectionWith parseAt content (nowhere.start + 1)).1.nodeAt nowhere).unplaced := by
    rw [← Node.unplaced_shift span.start (Selection.nodeAt _ nowhere), ← hmoved]
    rfl
  rw [groupNodes, groupWith, groupWith]
  split_ifs
  · rfl
  · rw [unplacedNodes, unplacedNodes, hselect]
    rfl
  · rfl

/-- The nodes of a text come from its segments one by one. -/
theorem flatMap_parse {α : Type} {f : Node → List α} (hf : ∀ n, f n.unplaced = f n) (text : Text) :
    (parse text).nodes.flatMap f =
      (Scan.ofText text).segments.flatMap
        (Segment.gather (fun literal => f (.text literal nowhere))
          fun content => (groupNodes content).flatMap f) := by
  have hunplaced (nodes : List Node) : nodes.flatMap f = (unplacedNodes nodes).flatMap f := by
    rw [unplacedNodes_eq_map, List.flatMap_map]
    exact List.flatMap_congr fun n _ => (hf n).symm
  rw [parse, parseAt_eq, nodesWith_eq, Parsed.append, List.nil_append, Parsed.concat_nodes,
    List.flatMap_map, List.flatMap_assoc]
  refine List.flatMap_congr fun segment _ => ?_
  rw [hunplaced]
  cases segment with
  | literal literal span => simp [segmentWith, unplacedNodes, Node.unplaced, Segment.gather]
  | group content span => rw [segmentWith, unplacedNodes_groupWith, Segment.gather]

/-- What is read off nodes one by one, without regard to their places and with texts cut anywhere,
is read off two texts one after the other. -/
theorem flatMap_parse_append {α : Type} {f : Node → List α} (hf : ∀ n, f n.unplaced = f n)
    (htext : ∀ x y, f (.text (x ++ y) nowhere) = f (.text x nowhere) ++ f (.text y nowhere))
    {a : Text} (h : depth a = 0) (b : Text) :
    (parse (a ++ b)).nodes.flatMap f = (parse a).nodes.flatMap f ++ (parse b).nodes.flatMap f := by
  rw [flatMap_parse hf, flatMap_parse hf, flatMap_parse hf]
  exact Scan.gather_run_append htext (by simpa using h) b

/-- A text that opens a group and never closes it has no nodes. -/
theorem Unclosed.nodes_parse {text : Text} (h : Unclosed text) : (parse text).nodes = [] := by
  obtain ⟨rest, inner, rfl, hlevel⟩ := h
  have hsegments : (Scan.ofText ('{' :: rest)).segments = [] := by
    have hopens : Scan.State.Opens {} '{' := ⟨rfl, rfl⟩
    have hdepth : (Scan.State.next {} '{').depth = (0 : Nat) + 1 := by
      rw [Scan.State.depth_next]
      rfl
    rw [Scan.ofText, Scan.run_cons, hopens.step.1, Scan.segments_run_of_level hdepth hlevel]
    rfl
  rw [parse, parseAt_eq, nodesWith_eq, hsegments]
  rfl

end Pattern

namespace Template

open Pattern

/-! ### Templates -/

mutual
theorem nodeCode_unplaced (n : Node) : nodeCode n.unplaced = nodeCode n := by
  match n with
  | .text _ _ => rfl
  | .placeholder _ _ => rfl
  | .select name cases fallback _ =>
    rw [Node.unplaced, nodeCode, nodeCode, casesCode_unplaced, bodyCode_unplaced]

theorem bodyCode_unplaced (nodes : List Node) :
    bodyCode (unplacedNodes nodes) = bodyCode nodes := by
  match nodes with
  | [] => rfl
  | node :: rest => rw [unplacedNodes, bodyCode, bodyCode, nodeCode_unplaced, bodyCode_unplaced]

theorem casesCode_unplaced (subject : Text) (cases : List Case) :
    casesCode subject (unplacedCases cases) = casesCode subject cases := by
  match cases with
  | [] => rfl
  | ⟨label, body, _⟩ :: rest =>
    rw [unplacedCases, casesCode, casesCode, bodyCode_unplaced, casesCode_unplaced]
end

mutual
theorem nodeOccurrences_unplaced (n : Node) : nodeOccurrences n.unplaced = nodeOccurrences n := by
  match n with
  | .text _ _ => rfl
  | .placeholder _ _ => rfl
  | .select name cases fallback _ =>
    rw [Node.unplaced, nodeOccurrences, nodeOccurrences, caseOccurrences_unplaced,
      occurrences_unplaced]

theorem occurrences_unplaced (nodes : List Node) :
    occurrences (unplacedNodes nodes) = occurrences nodes := by
  match nodes with
  | [] => rfl
  | node :: rest =>
    rw [unplacedNodes, occurrences, occurrences, nodeOccurrences_unplaced, occurrences_unplaced]

theorem caseOccurrences_unplaced (cases : List Case) :
    caseOccurrences (unplacedCases cases) = caseOccurrences cases := by
  match cases with
  | [] => rfl
  | ⟨label, body, _⟩ :: rest =>
    rw [unplacedCases, caseOccurrences, caseOccurrences, occurrences_unplaced,
      caseOccurrences_unplaced]
end

theorem bodyCode_eq_flatMap (nodes : List Node) : bodyCode nodes = nodes.flatMap nodeCode := by
  induction nodes with
  | nil => rfl
  | cons node rest ih => rw [bodyCode, ih, List.flatMap_cons]

theorem occurrences_eq_flatMap (nodes : List Node) :
    occurrences nodes = nodes.flatMap nodeOccurrences := by
  induction nodes with
  | nil => rfl
  | cons node rest ih => rw [occurrences, ih, List.flatMap_cons]

/-- If the first of two texts has as many opening braces as closing ones, in whatever order, then
both together compile to the code of the first one followed by that of the second one, with the
variables of the first one and those that only the second one has. A second text that opens with a
group without an end adds nothing. -/
theorem compile_append (a b : Text) (h : a.count '{' = a.count '}') :
    (∃ first second, (compile a).code = Text.ticked first ∧
        (compile b).code = Text.ticked second ∧
        (compile (a ++ b)).code = Text.ticked (first ++ second)) ∧
      (compile (a ++ b)).names =
        (compile a).names ++ (compile b).names.filter (· ∉ (compile a).names) ∧
      (Unclosed b → (compile (a ++ b)).code = (compile a).code ∧
        (compile (a ++ b)).names = (compile a).names) := by
  have hdepth : depth a = 0 := by
    rw [depth, h]
    omega
  have hcode : bodyCode (parse (a ++ b)).nodes =
      bodyCode (parse a).nodes ++ bodyCode (parse b).nodes := by
    simp only [bodyCode_eq_flatMap]
    exact flatMap_parse_append nodeCode_unplaced (fun _ _ => rfl) hdepth b
  have hnames : occurrences (parse (a ++ b)).nodes =
      occurrences (parse a).nodes ++ occurrences (parse b).nodes := by
    simp only [occurrences_eq_flatMap]
    exact flatMap_parse_append nodeOccurrences_unplaced (fun _ _ => rfl) hdepth b
  refine ⟨⟨_, _, rfl, rfl, congrArg Text.ticked hcode⟩, ?_, fun hunclosed => ?_⟩
  · simp only [compile, names_eq, hnames]
    rw [← foldl_addName_nil, List.foldl_append, foldl_addName_nil, foldl_addName,
      Lists.eraseDups_filter]
  · rw [hunclosed.nodes_parse, bodyCode, List.append_nil] at hcode
    rw [hunclosed.nodes_parse, occurrences, List.append_nil] at hnames
    exact ⟨congrArg Text.ticked hcode, by simp only [compile, names_eq, hnames]⟩

/-- A stray brace whose depth is made up for, in front of a placeholder. -/
def strayText : Text := "ü\x7d \x7b\x7bx\x7d"

theorem compile_append_stray :
    strayText.count '{' = strayText.count '}' ∧ Unclosed "\x7by" ∧
      (compile (strayText ++ "\x7by")).code = (compile strayText).code ∧
      (compile (strayText ++ "\x7bx\x7d\x7by\x7d")).names = ["x", "y"] := by
  have hcount : strayText.count '{' = strayText.count '}' := by decide
  have hunclosed : Unclosed "\x7by" := ⟨"y", 0, rfl, rfl⟩
  obtain ⟨-, -, hdropped⟩ := compile_append strayText "\x7by" hcount
  obtain ⟨-, hnames, -⟩ := compile_append strayText "\x7bx\x7d\x7by\x7d" hcount
  refine ⟨hcount, hunclosed, (hdropped hunclosed).1, ?_⟩
  rw [hnames]
  decide +kernel

end Template

end Phrasebook
