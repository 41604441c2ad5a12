import Phrasebook.Proofs.Pattern.Recognition

/-!
# Reading a text elsewhere

Where a text starts has no influence on how it is read: a text that starts further to the right is
read as the same nodes with the same diagnostics, and all their spans have moved along.
-/

namespace Phrasebook

namespace Pattern

open Text

mutual
/-- A node with all of its spans moved right. -/
def Node.shift (distance : Nat) : Node → Node
  | .text value span => .text value (span.shift distance)
  | .placeholder name span => .placeholder name (span.shift distance)
  | .select name cases fallback span =>
    .select name (shiftCases distance cases) (shiftNodes distance fallback) (span.shift distance)

/-- Nodes with all of their spans moved right. -/
def shiftNodes (distance : Nat) : List Node → List Node
  | [] => []
  | node :: rest => node.shift distance :: shiftNodes distance rest

/-- Cases with all of their spans moved right. -/
def shiftCases (distance : Nat) : List Case → List Case
  | [] => []
  | ⟨label, body, span⟩ :: rest =>
    ⟨label, shiftNodes distance body, span.shift distance⟩ :: shiftCases distance rest
end

/-- A diagnostic whose span has moved right. -/
def Diagnostic.shift (distance : Nat) (d : Diagnostic) : Diagnostic :=
  { d with span := d.span.shift distance }

/-- What was read from a text that has moved right. -/
def Parsed.shift (distance : Nat) (parsed : Parsed) : Parsed where
  nodes := shiftNodes distance parsed.nodes
  diagnostics := parsed.diagnostics.map (Diagnostic.shift distance)

/-- An arm that has moved right. -/
def ReadArm.shift (distance : Nat) (arm : ReadArm) : ReadArm :=
  ⟨arm.label, arm.span.shift distance, arm.body.shift distance⟩

theorem shiftNodes_append (distance : Nat) (a b : List Node) :
    shiftNodes distance (a ++ b) = shiftNodes distance a ++ shiftNodes distance b := by
  induction a with
  | nil => rfl
  | cons node a ih => simp [shiftNodes, ih]

theorem Parsed.shift_append (distance : Nat) (a b : Parsed) :
    (a.append b).shift distance = (a.shift distance).append (b.shift distance) := by
  simp [Parsed.shift, Parsed.append, shiftNodes_append]

theorem Parsed.shift_concat (distance : Nat) (parts : List Parsed) :
    (concat parts).shift distance = concat (parts.map (Parsed.shift distance)) := by
  induction parts with
  | nil => rfl
  | cons first rest ih => rw [concat, shift_append, ih, List.map_cons, concat]

/-! ### Arms -/

section Arms

variable (distance : Nat)

theorem ReadArm.cases_shift (arms : List ReadArm) :
    ReadArm.cases (arms.map (ReadArm.shift distance)) =
      shiftCases distance (ReadArm.cases arms) := by
  have hcases : ReadArm.cases (arms.map (ReadArm.shift distance)) =
      ((arms.filter fun arm => arm.label ≠ other).map (ReadArm.shift distance)).map
        fun arm => ⟨arm.label, arm.body.nodes, arm.span⟩ := by
    rw [ReadArm.cases, List.filter_map]
    rfl
  rw [hcases, ReadArm.cases]
  induction arms.filter fun arm => arm.label ≠ other with
  | nil => rfl
  | cons arm rest ih => rw [List.map_cons, List.map_cons, List.map_cons, shiftCases, ih]; rfl

theorem ReadArm.fallback?_shift (arms : List ReadArm) :
    ReadArm.fallback? (arms.map (ReadArm.shift distance)) =
      (ReadArm.fallback? arms).map (shiftNodes distance) := by
  simp only [ReadArm.fallback?, List.filter_map, List.getLast?_map, Option.map_map]
  rfl

theorem ReadArm.diagnostics_shift (earlier : List Text) (arms : List ReadArm) :
    ReadArm.diagnostics earlier (arms.map (ReadArm.shift distance)) =
      (ReadArm.diagnostics earlier arms).map (Diagnostic.shift distance) := by
  induction arms generalizing earlier with
  | nil => rfl
  | cons arm arms ih =>
    rw [List.map_cons, ReadArm.diagnostics, ReadArm.diagnostics, List.map_append, List.map_append,
      ih]
    by_cases hrepeated : arm.label ∈ earlier
    · rw [if_pos hrepeated, if_pos (c := (arm.shift distance).label ∈ earlier) hrepeated]
      rfl
    · rw [if_neg hrepeated, if_neg (c := (arm.shift distance).label ∈ earlier) hrepeated]
      rfl

theorem Label.diagnostics_add (last : Option Label) (base : Nat) :
    Label.diagnostics last (base + distance) =
      (Label.diagnostics last base).map (Diagnostic.shift distance) := by
  cases last with
  | none => rfl
  | some label =>
    simp only [Label.diagnostics]
    split_ifs
    · rfl
    · simp [Diagnostic.shift, Span.shift_add]

theorem Scan.diagnostics_add (scan : Scan) (base : Nat) :
    scan.diagnostics (base + distance) =
      (scan.diagnostics base).map (Diagnostic.shift distance) := by
  simp only [Scan.diagnostics, List.map_append, List.map_map]
  congr 1
  · refine List.map_congr_left fun offset _ => ?_
    simp only [Function.comp_apply, Diagnostic.shift, Span.shift]
    congr 2 <;> omega
  · refine List.map_congr_left fun span _ => ?_
    simp [Diagnostic.shift, Span.shift_add]

theorem afterHeaderAt_add (text : Text) (base : Nat) :
    afterHeaderAt text (base + distance) = afterHeaderAt text base + distance := by
  simp only [afterHeaderAt]
  omega

end Arms

/-! ### Levels -/

section Levels

variable {body : Text → Nat → Parsed} {distance : Nat}
  (hbody : ∀ inner start, body inner (start + distance) = (body inner start).shift distance)

include hbody

theorem readArms_add (text : Text) (base : Nat) :
    readArms body text (base + distance) =
      (readArms body text base).map (ReadArm.shift distance) := by
  rw [readArms, readArms, List.map_map]
  refine List.map_congr_left fun arm _ => ?_
  rw [afterHeaderAt_add, Nat.add_right_comm, hbody, Span.shift_add]
  rfl

theorem selectionWith_add (text : Text) (base : Nat) (span : Span) :
    ((selectionWith body text (base + distance)).1.nodeAt (span.shift distance) =
        ((selectionWith body text base).1.nodeAt span).shift distance) ∧
      (selectionWith body text (base + distance)).2 =
        (selectionWith body text base).2.map (Diagnostic.shift distance) := by
  have hfallback := ReadArm.fallback?_shift distance (readArms body text base)
  simp only [selectionWith_eq, readArms_add hbody, Selection.nodeAt, Node.shift,
    ReadArm.cases_shift, ReadArm.diagnostics_shift, Scan.diagnostics_add, Label.diagnostics_add,
    afterHeaderAt_add, missingOther, hfallback, Option.isSome_map, List.map_append]
  -- What is left differs only if there is no fallback, by the places of what stands in for it.
  cases ReadArm.fallback? (readArms body text base) with
  | some nodes => exact ⟨rfl, rfl⟩
  | none =>
    have hend : base + distance + width text = base + width text + distance := by omega
    simp [emptyBody, shiftNodes, Node.shift, Span.point, Span.shift, Diagnostic.shift, hend]

theorem groupWith_shift (content : Text) (span : Span) :
    groupWith body content (span.shift distance) =
      (groupWith body content span).shift distance := by
  have hstart : (span.shift distance).start + 1 = span.start + 1 + distance := by
    simp only [Span.shift]
    omega
  obtain ⟨hnode, hsaid⟩ := selectionWith_add hbody content (span.start + 1) span
  simp only [groupWith, hstart, hnode, hsaid]
  split_ifs <;> rfl

theorem segmentWith_add (base : Nat) (segment : Segment) :
    segmentWith body (base + distance) segment =
      (segmentWith body base segment).shift distance := by
  cases segment with
  | literal literal span =>
    rw [segmentWith, Span.shift_add]
    rfl
  | group content span => rw [segmentWith, Span.shift_add, groupWith_shift hbody, segmentWith]

theorem nodesWith_add (text : Text) (base : Nat) :
    nodesWith body text (base + distance) = (nodesWith body text base).shift distance := by
  rw [nodesWith_eq, nodesWith_eq, Parsed.shift_append, Parsed.shift_concat, List.map_map,
    Scan.diagnostics_add]
  congr 2
  exact List.map_congr_left fun segment _ => segmentWith_add hbody base segment

end Levels

/-- A text that has moved right is read as what it was read as, moved right. -/
theorem parseAt_add (text : Text) (base distance : Nat) :
    parseAt text (base + distance) = (parseAt text base).shift distance := by
  induction hlength : text.length using Nat.strong_induction_on generalizing text base with
  | _ n ih =>
    rw [parseAt, parseAt]
    refine nodesWith_add (fun inner start => ?_) text base
    split_ifs with hinner
    · exact ih inner.length (hlength ▸ hinner) inner start rfl
    · rfl

end Pattern

end Phrasebook
