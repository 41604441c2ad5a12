import Phrasebook.Proofs.Pattern.Pointing
import Phrasebook.Proofs.Template.Rendering
import Mathlib.Tactic.TFAE

/-!
# Cases that are never chosen

A select takes the first case with the label that it looks for, so a case is never chosen if an
earlier one has its label. Reading a pattern reports exactly these cases: each of them once, under
its own span, whether it stands at the outermost level, in the body of another such case, or next to
a fallback that was replaced. What the bodies of such cases hold has no influence on any rendering.

To find the report about a case among all that is said, one goes down to the case level by level: no
chunk but the one that holds the case, and no arm but the one that holds it, says anything about its
span, because they stand elsewhere.

## Main definitions

* `Pattern.marks`: the reports of a repeated label under a span.
* `Pattern.SameChoice`: nodes that differ in bodies of repeated cases only.

## Main results

* `Pattern.marks_readChunks`, `Pattern.marks_readStrips`: reports stay in their chunk and their arm.
* `Pattern.marks_case`: the reports about a case, wherever it stands.
* `Pattern.SameChoice.render_eq`: bodies of repeated cases do not matter.
* `Pattern.duplicateCase_iff_unreachable`: the cases that are reported are never chosen.
-/

namespace Phrasebook

/-- A span covers characters between two offsets. -/
structure Span.Between (span : Span) (first last : Nat) : Prop where
  first_le : first ≤ span.start
  nonempty : span.start < span.stop
  le_last : span.stop ≤ last

namespace Pattern

open Text

/-! ### Reports of repeated labels -/

/-- Whether a problem is a case with the label of an earlier one. -/
def Problem.isDuplicateCase : Problem → Bool
  | duplicateCase _ => true
  | unrecognizedGroup _ => false
  | unterminatedBrace => false
  | strayClosingBrace => false
  | duplicateDefault => false
  | missingOther _ => false
  | ignoredSelectText _ => false

/-- What reports the case under a span as repeated. -/
def marks (span : Span) (diagnostics : List Diagnostic) : List Diagnostic :=
  diagnostics.filter fun d => d.problem.isDuplicateCase && d.span = span

theorem marks_append (span : Span) (a b : List Diagnostic) :
    marks span (a ++ b) = marks span a ++ marks span b :=
  List.filter_append _ _

theorem mem_marks {span : Span} {diagnostics : List Diagnostic} {d : Diagnostic} :
    d ∈ marks span diagnostics ↔
      d ∈ diagnostics ∧ d.problem.isDuplicateCase = true ∧ d.span = span := by
  simp [marks]

/-- What is said elsewhere, or about something else, reports nothing. -/
theorem marks_eq_nil {span : Span} {diagnostics : List Diagnostic}
    (h : ∀ d ∈ diagnostics, d.problem.isDuplicateCase = true → d.span ≠ span) :
    marks span diagnostics = [] := by
  apply List.eq_nil_iff_forall_not_mem.mpr
  intro d hd
  obtain ⟨hmem, hkind, hspan⟩ := mem_marks.mp hd
  exact h d hmem hkind hspan

/-- What is said about braces reports no case. -/
theorem marks_scan (span : Span) (scan : Scan) (base : Nat) :
    marks span (scan.diagnostics base) = [] := by
  apply marks_eq_nil
  intro d hd hkind
  rw [Scan.diagnostics, List.mem_append, List.mem_map, List.mem_map] at hd
  rcases hd with ⟨_, -, rfl⟩ | ⟨_, -, rfl⟩
  · contradiction
  · contradiction

/-! ### Levels -/

theorem readChunks_append (offset : Nat) (a b : List Chunk) :
    readChunks offset (a ++ b) =
      (readChunks offset a).append (readChunks (offset + width (spell a)) b) := by
  induction a generalizing offset with
  | nil => rfl
  | cons chunk a ih =>
    rw [List.cons_append, readChunks, ih, readChunks, spell_cons, width_append, Nat.add_assoc]
    simp [Parsed.append]

/-- Reports stay in the chunk where their span lies. -/
theorem marks_readChunks {front back : List Chunk} {chunk : Chunk}
    (hsettled : ∀ other ∈ front ++ chunk :: back, other.Settled) {offset : Nat} {span : Span}
    (hspan : span.Between (offset + width (spell front))
      (offset + width (spell front) + width chunk.spell)) :
    marks span (readChunks offset (front ++ chunk :: back)).diagnostics =
      marks span (chunk.read (offset + width (spell front))).diagnostics := by
  obtain ⟨hfirst, hnonempty, hlast⟩ := hspan
  have hinto {chunks : List Chunk} (hchunks : ∀ other ∈ chunks, other.Settled) (start : Nat) :
      ∀ d ∈ (readChunks start chunks).diagnostics, PointsInto (spell chunks) start d :=
    pointsInto_readChunks hchunks (fun inner base _ hbalanced => hbalanced.pointsInto base) start
  have hfront : marks span (readChunks offset front).diagnostics = [] := by
    apply marks_eq_nil
    rintro d hd - rfl
    have hbounds := (hinto (fun other hmem => hsettled other (by simp [hmem])) offset d hd).bounds
    omega
  have hback : marks span (readChunks (offset + width (spell front) + width chunk.spell)
      back).diagnostics = [] := by
    apply marks_eq_nil
    rintro d hd - rfl
    have hbounds := (hinto (fun other hmem => hsettled other (by simp [hmem])) _ d hd).bounds
    omega
  rw [readChunks_append, readChunks, Parsed.append, Parsed.append, marks_append, marks_append,
    hfront, hback, List.nil_append, List.append_nil]

theorem marks_parseAt {text tail : Text} {chunks : List Chunk}
    (h : Finds (Scan.ofText text) 0 text chunks tail) (span : Span) (base : Nat) :
    marks span (parseAt text base).diagnostics =
      marks span (readChunks base chunks).diagnostics := by
  rw [parseAt_eq_readChunks h, Parsed.append, marks_append, marks_scan, List.nil_append]

/-! ### Arms -/

theorem readStrips_append (offset : Nat) (a b : List Strip) :
    readStrips offset (a ++ b) =
      readStrips offset a ++ readStrips (offset + width (a.flatMap Strip.spell)) b := by
  induction a generalizing offset with
  | nil => rfl
  | cons strip a ih =>
    rw [List.cons_append, readStrips, ih, readStrips, List.flatMap_cons, width_append,
      Nat.add_assoc, List.cons_append]

theorem ReadArm.diagnostics_append (earlier : List Text) (a b : List ReadArm) :
    ReadArm.diagnostics earlier (a ++ b) =
      ReadArm.diagnostics earlier a ++
        ReadArm.diagnostics ((a.map ReadArm.label).reverse ++ earlier) b := by
  induction a generalizing earlier with
  | nil => rfl
  | cons arm a ih =>
    simp only [List.cons_append, ReadArm.diagnostics, ih, List.map_cons, List.reverse_cons,
      List.append_assoc, List.nil_append]

/-- What is said about the label of an arm, given the arms in front of it. -/
def labelSaid (front : List Strip) (strip : Strip) (offset : Nat) : List Diagnostic :=
  if trim strip.label ∈ front.map fun strip => trim strip.label then
    [⟨if trim strip.label = other then .duplicateDefault else .duplicateCase (trim strip.label),
      ⟨offset, offset + width strip.spell⟩⟩]
  else []

theorem span_of_mem_labelSaid {front : List Strip} {strip : Strip} {offset : Nat} {d : Diagnostic}
    (h : d ∈ labelSaid front strip offset) : d.span = ⟨offset, offset + width strip.spell⟩ := by
  by_cases hrepeated : trim strip.label ∈ front.map fun strip => trim strip.label
  · rw [labelSaid, if_pos hrepeated] at h
    rw [List.mem_singleton.mp h]
  · rw [labelSaid, if_neg hrepeated] at h
    contradiction

section Arms

variable {front back : List Strip} {strip : Strip}
  (harms : ∀ other ∈ front ++ strip :: back, BraceFree other.label ∧ Balanced other.content)
  {offset start : Nat} (hstart : start = offset + width (front.flatMap Strip.spell)) {span : Span}

include harms hstart

/-- Reports stay in the arm where their span lies: they are about its body or about its label. -/
theorem marks_readStrips (hspan : span.Between start (start + width strip.spell)) :
    marks span (ReadArm.diagnostics [] (readStrips offset (front ++ strip :: back))) =
      marks span (parseAt strip.content (start + strip.inner)).diagnostics ++
        marks span (labelSaid front strip start) := by
  obtain ⟨hfirst, hnonempty, hlast⟩ := hspan
  have hinto {strips : List Strip}
      (hstrips : ∀ strip ∈ strips, BraceFree strip.label ∧ Balanced strip.content)
      (earlier : List Text) (start : Nat) :
      ∀ d ∈ ReadArm.diagnostics earlier (readStrips start strips),
        PointsInto (strips.flatMap Strip.spell) start d := by
    intro d hd
    exact (pointsInto_readStrips hstrips
      (fun strip hstrip base => (hstrips strip hstrip).2.pointsInto base) earlier start d hd).2
  have hfront (earlier : List Text) :
      marks span (ReadArm.diagnostics earlier (readStrips offset front)) = [] := by
    apply marks_eq_nil
    rintro d hd - rfl
    have hbounds :=
      (hinto (fun other hmem => harms other (by simp [hmem])) earlier offset d hd).bounds
    omega
  have hback (earlier : List Text) :
      marks span (ReadArm.diagnostics earlier (readStrips (start + width strip.spell) back)) =
        [] := by
    apply marks_eq_nil
    rintro d hd - rfl
    have hbounds := (hinto (fun other hmem => harms other (by simp [hmem])) earlier _ d hd).bounds
    omega
  rw [readStrips_append, ← hstart, readStrips, ReadArm.diagnostics_append, ReadArm.diagnostics,
    marks_append, marks_append, marks_append, hfront, hback, List.nil_append, List.append_nil,
    map_label_readStrips, List.append_nil]
  simp only [List.mem_reverse]
  rfl

/-- The arm itself is reported if its label is repeated, and nothing in its body says so. -/
theorem marks_arm (hother : trim strip.label ≠ other) :
    marks ⟨start, start + width strip.spell⟩
        (ReadArm.diagnostics [] (readStrips offset (front ++ strip :: back))) =
      if trim strip.label ∈ front.map fun strip => trim strip.label then
        [⟨.duplicateCase (trim strip.label), ⟨start, start + width strip.spell⟩⟩]
      else [] := by
  have hwidth := strip.width_spell
  rw [marks_readStrips harms hstart ⟨Nat.le_refl _, by dsimp only; omega, Nat.le_refl _⟩]
  have hbody : marks ⟨start, start + width strip.spell⟩
      (parseAt strip.content (start + strip.inner)).diagnostics = [] := by
    apply marks_eq_nil
    intro d hd _ hsame
    have hbounds := ((harms strip (by simp)).2.pointsInto _ d hd).bounds
    rw [hsame, Strip.inner] at hbounds
    dsimp only at hbounds
    omega
  rw [hbody, List.nil_append, labelSaid, if_neg hother]
  split_ifs
  · simp [marks, Problem.isDuplicateCase]
  · rfl

/-- What is reported inside of a body is said about the body. -/
theorem marks_body
    (hspan : span.Between (start + strip.inner) (start + strip.inner + width strip.content)) :
    marks span (ReadArm.diagnostics [] (readStrips offset (front ++ strip :: back))) =
      marks span (parseAt strip.content (start + strip.inner)).diagnostics := by
  obtain ⟨hfirst, hnonempty, hlast⟩ := hspan
  have hwidth := strip.width_spell
  rw [Strip.inner] at hfirst hlast
  rw [marks_readStrips harms hstart ⟨by omega, hnonempty, by omega⟩]
  have hlabel : marks span (labelSaid front strip start) = [] := by
    apply marks_eq_nil
    rintro d hd - rfl
    rw [span_of_mem_labelSaid hd] at hfirst
    dsimp only at hfirst
    omega
  rw [hlabel, List.append_nil]

end Arms

/-! ### Cases among arms -/

/-- A case comes from an arm, and the cases in front of it from the arms in front of that. -/
theorem ReadArm.exists_of_cases_eq {arms : List ReadArm} {before after : List Case} {c : Case}
    (h : ReadArm.cases arms = before ++ c :: after) :
    ∃ front arm back, arms = front ++ arm :: back ∧ before = ReadArm.cases front ∧
      arm.label ≠ other ∧ c = ⟨arm.label, arm.body.nodes, arm.span⟩ := by
  obtain ⟨kept, more, hfilter, rfl, hmore⟩ := List.map_eq_append_iff.mp h
  obtain ⟨first, rest, rfl, rfl, rfl⟩ := List.filter_eq_append_iff.mp hfilter
  obtain ⟨arm, others, hrest, rfl, rfl⟩ := List.map_eq_cons_iff.mp hmore
  obtain ⟨dropped, back, rfl, hdropped, hkept, rfl⟩ := List.filter_eq_cons_iff.mp hrest
  refine ⟨first ++ dropped, arm, back, by simp, ?_, by simpa using hkept, rfl⟩
  rw [ReadArm.cases, List.filter_append, List.filter_eq_nil_iff.mpr hdropped, List.append_nil]

/-- An arm comes from a labelled group, and the arms in front of it from the groups in front. -/
theorem exists_of_readStrips_eq {offset : Nat} {strips : List Strip} {front back : List ReadArm}
    {arm : ReadArm} (h : readStrips offset strips = front ++ arm :: back) :
    ∃ before strip after, strips = before ++ strip :: after ∧ front = readStrips offset before ∧
      arm = strip.read (offset + width (before.flatMap Strip.spell)) := by
  induction front generalizing offset strips with
  | nil =>
    cases strips with
    | nil => simp [readStrips] at h
    | cons strip strips =>
      rw [readStrips, List.nil_append, List.cons.injEq] at h
      exact ⟨[], strip, strips, rfl, rfl, h.1.symm⟩
  | cons first front ih =>
    cases strips with
    | nil => simp [readStrips] at h
    | cons strip strips =>
      rw [readStrips, List.cons_append, List.cons.injEq] at h
      obtain ⟨rfl, hrest⟩ := h
      obtain ⟨before, other, after, rfl, rfl, rfl⟩ := ih hrest
      refine ⟨strip :: before, other, after, rfl, rfl, ?_⟩
      rw [List.flatMap_cons, width_append, Nat.add_assoc]

/-- A label other than that of a fallback occurs among cases if it occurs among arms. -/
theorem mem_label_cases {arms : List ReadArm} {label : Text} (h : label ≠ other) :
    label ∈ (ReadArm.cases arms).map Case.label ↔ label ∈ arms.map ReadArm.label := by
  simp only [ReadArm.cases, List.map_map, List.mem_map, List.mem_filter]
  constructor
  · rintro ⟨arm, ⟨harm, -⟩, rfl⟩
    exact ⟨arm, harm, rfl⟩
  · rintro ⟨arm, harm, rfl⟩
    exact ⟨arm, ⟨harm, by simpa using h⟩, rfl⟩

/-! ### Selects -/

/-- A chunk is read as a select whose arms stand from `start` on. Reports about its cases are what
is said about the arms. -/
structure ReadsSelect (chunk : Chunk) (offset : Nat) (cases : List Case) (fallback : List Node)
    (start : Nat) (strips : List Strip) : Prop where
  arms : ∀ strip ∈ strips, BraceFree strip.label ∧ Balanced strip.content
  shorter : ∀ strip ∈ strips, strip.content.length < chunk.spell.length
  starts : offset ≤ start
  stops : start + width (strips.flatMap Strip.spell) ≤ offset + width chunk.spell
  cases : cases = ReadArm.cases (readStrips start strips)
  fallback : (∃ arm ∈ readStrips start strips, fallback = arm.body.nodes) ∨
    ∃ span, fallback = emptyBody span
  said : ∀ span, marks span (chunk.read offset).diagnostics =
    marks span (ReadArm.diagnostics [] (readStrips start strips))

/-- Reports about a select come from its arms, not from the text after them or from the lack of a
fallback. -/
theorem marks_select {content last : Text} {heading : Heading} {strips : List Strip}
    (h : Balanced content) (hparts : SelectParts content heading strips last) (span : Span)
    (base : Nat) :
    marks span (selectionWith parseAt content base).2 =
      marks span (ReadArm.diagnostics [] (readStrips (base + width heading.spell) strips)) := by
  have hlast (last : Option Label) (base : Nat) :
      marks span (Label.diagnostics last base) = [] := by
    apply marks_eq_nil
    intro d hd hkind
    obtain ⟨text, hproblem⟩ := Label.of_mem_diagnostics hd
    rw [hproblem] at hkind
    contradiction
  have hmissing (arms : List ReadArm) : marks span (missingOther content base arms) = [] := by
    rw [missingOther]
    split_ifs
    · rfl
    · rfl
  rw [selectionWith_eq, h.afterHeader.scan_diagnostics, List.nil_append, marks_append, marks_append,
    hlast, hmissing, List.append_nil, List.append_nil, hparts.readArms_eq]

theorem Chunk.Settled.exists_readsSelect {chunk : Chunk} (h : chunk.Settled) {offset : Nat}
    {name : Text} {cases : List Case} {fallback : List Node} {span : Span}
    (hread : (chunk.read offset).nodes = [.select name cases fallback span]) :
    ∃ start strips, ReadsSelect chunk offset cases fallback start strips := by
  cases chunk with
  | literal text => simp [Chunk.read] at hread
  | group content =>
    by_cases hword : isPaddedWord content = true
    · simp [Chunk.read, groupWith, hword] at hread
    by_cases hheader : (Header.read? content).isSome = true
    · obtain ⟨heading, strips, last, hparts⟩ := exists_selectParts h hheader
      simp only [Chunk.read, groupWith, if_neg hword, if_pos hheader, selectionWith_eq,
        Selection.nodeAt, hparts.readArms_eq, List.cons.injEq, Node.select.injEq] at hread
      obtain ⟨⟨-, rfl, hfallback, -⟩, -⟩ := hread
      have hspelled := congrArg width hparts.spelled
      rw [width_append, spell_stripChunks_eq, width_append] at hspelled
      refine ⟨offset + 1 + width heading.spell, strips, ?_⟩
      exact
        { arms := hparts.arms
          shorter := by
            intro strip hstrip
            have hlength := @length_content_lt strips last strip hstrip
            have hcontent := congrArg List.length hparts.spelled
            rw [List.length_append] at hcontent
            simp only [Chunk.spell, List.length_append, List.length_cons]
            omega
          starts := by omega
          stops := by
            rw [width_spell_group]
            omega
          cases := rfl
          fallback := by
            cases hfound :
              ReadArm.fallback? (readStrips (offset + 1 + width heading.spell) strips) with
            | none =>
              rw [hfound] at hfallback
              exact .inr ⟨_, hfallback.symm⟩
            | some nodes =>
              rw [hfound] at hfallback
              obtain ⟨arm, hlast, rfl⟩ := Option.map_eq_some_iff.mp hfound
              have harm := List.mem_of_mem_filter (List.mem_of_getLast? hlast)
              exact .inl ⟨arm, harm, hfallback.symm⟩
          said := by
            intro span
            rw [← marks_select h hparts]
            simp only [Chunk.read, groupWith, if_neg hword, if_pos hheader] }
    · simp [Chunk.read, groupWith, hword, hheader] at hread

/-! ### Nodes by their outermost select -/

/-- A node among nodes is one of them or stands in a body of one of them. -/
theorem Within.mem_or_inner {nodes : List Node} {n : Node} (h : Within nodes n) :
    n ∈ nodes ∨ ∃ name cases fallback span, .select name cases fallback span ∈ nodes ∧
      ((∃ c ∈ cases, Within c.body n) ∨ Within fallback n) := by
  induction h with
  | top hmem => exact .inl hmem
  | inCase _ hcase hmem ih =>
    rcases ih with hselect | ⟨name, cases, fallback, span, houter, ⟨c, hc, hinner⟩ | hinner⟩
    · exact .inr ⟨_, _, _, _, hselect, .inl ⟨_, hcase, .top hmem⟩⟩
    · exact .inr ⟨name, cases, fallback, span, houter, .inl ⟨c, hc, .inCase hinner hcase hmem⟩⟩
    · exact .inr ⟨name, cases, fallback, span, houter, .inr (.inCase hinner hcase hmem)⟩
  | inFallback _ hmem ih =>
    rcases ih with hselect | ⟨name, cases, fallback, span, houter, ⟨c, hc, hinner⟩ | hinner⟩
    · exact .inr ⟨_, _, _, _, hselect, .inr (.top hmem)⟩
    · exact .inr ⟨name, cases, fallback, span, houter, .inl ⟨c, hc, .inFallback hinner hmem⟩⟩
    · exact .inr ⟨name, cases, fallback, span, houter, .inr (.inFallback hinner hmem)⟩

/-- No select takes the place of a missing fallback. -/
theorem not_within_emptyBody {place span : Span} {name : Text} {cases : List Case}
    {fallback : List Node} : ¬ Within (emptyBody place) (.select name cases fallback span) := by
  intro h
  rcases h.mem_or_inner with hmem | ⟨_, _, _, _, hmem, -⟩
  · simp [emptyBody] at hmem
  · simp [emptyBody] at hmem

/-- A select inside of a select stands in the body of one of its arms. -/
theorem ReadsSelect.exists_arm {chunk : Chunk} {offset start : Nat} {cases : List Case}
    {fallback : List Node} {strips : List Strip}
    (h : ReadsSelect chunk offset cases fallback start strips) {name : Text}
    {innerCases : List Case} {innerFallback : List Node} {span : Span}
    (hinner : (∃ c ∈ cases, Within c.body (.select name innerCases innerFallback span)) ∨
      Within fallback (.select name innerCases innerFallback span)) :
    ∃ arm ∈ readStrips start strips,
      Within arm.body.nodes (.select name innerCases innerFallback span) := by
  rcases hinner with ⟨c, hc, hinner⟩ | hinner
  · rw [h.cases, ReadArm.cases] at hc
    obtain ⟨arm, harm, rfl⟩ := List.mem_map.mp hc
    exact ⟨arm, List.mem_of_mem_filter harm, hinner⟩
  · rcases h.fallback with ⟨arm, harm, rfl⟩ | ⟨place, rfl⟩
    · exact ⟨arm, harm, hinner⟩
    · exact absurd hinner not_within_emptyBody

/-! ### Cases at any depth -/

/-- What reports a case that stands behind other cases. -/
def caseSaid (before : List Case) (c : Case) : List Diagnostic :=
  if c.label ∈ before.map Case.label then [⟨.duplicateCase c.label, c.span⟩] else []

/-- The reports about a case of a select are those that its own arms give rise to. -/
theorem ReadsSelect.marks_case {chunk : Chunk} {offset start : Nat} {cases : List Case}
    {fallback : List Node} {strips : List Strip}
    (h : ReadsSelect chunk offset cases fallback start strips) {before after : List Case} {c : Case}
    (hc : cases = before ++ c :: after) :
    c.span.Between offset (offset + width chunk.spell) ∧
      marks c.span (chunk.read offset).diagnostics = caseSaid before c := by
  rw [h.cases] at hc
  obtain ⟨armsBefore, arm, _, harms, rfl, hother, rfl⟩ := ReadArm.exists_of_cases_eq hc
  obtain ⟨front, strip, back, rfl, rfl, rfl⟩ := exists_of_readStrips_eq harms
  have hstops := h.stops
  have hwidth := strip.width_spell
  rw [List.flatMap_append, List.flatMap_cons, width_append, width_append] at hstops
  refine ⟨⟨?_, ?_, ?_⟩, ?_⟩
  · have hstarts := h.starts
    simp only [Strip.read]
    omega
  · simp only [Strip.read]
    omega
  · simp only [Strip.read]
    omega
  · rw [h.said, caseSaid]
    simp only [mem_label_cases hother, map_label_readStrips]
    exact marks_arm h.arms rfl hother

/-- A case of a select, wherever it stands in a text, lies in the text, and what reports it is said
once if its label is repeated, and else not at all. -/
theorem marks_case {text : Text} {base : Nat} {name : Text} {cases : List Case}
    {fallback : List Node} {span : Span}
    (h : Within (parseAt text base).nodes (.select name cases fallback span))
    {before after : List Case} {c : Case} (hc : cases = before ++ c :: after) :
    c.span.Between base (base + width text) ∧
      marks c.span (parseAt text base).diagnostics = caseSaid before c := by
  induction hlength : text.length using Nat.strong_induction_on generalizing text base with
  | _ n ih =>
    -- The induction is on the length of the text, and goes down from select to select.
    obtain ⟨chunks, tail, hfinds⟩ := exists_finds text
    rw [marks_parseAt hfinds]
    rw [parseAt_eq_readChunks hfinds, Parsed.append, List.nil_append] at h
    suffices hchunk : ∃ front chunk back, chunks = front ++ chunk :: back ∧
        c.span.Between (base + width (spell front))
          (base + width (spell front) + width chunk.spell) ∧
        marks c.span (chunk.read (base + width (spell front))).diagnostics = caseSaid before c by
      obtain ⟨front, chunk, back, rfl, hspan, hmarks⟩ := hchunk
      refine ⟨⟨?_, hspan.nonempty, ?_⟩, ?_⟩
      · have hfirst := hspan.first_le
        omega
      · have hlast := hspan.le_last
        have hwidth := congrArg width hfinds.spelled
        rw [spell_append, spell_cons, width_append, width_append, width_append] at hwidth
        omega
      · rw [marks_readChunks hfinds.settled hspan, hmarks]
    rcases h.mem_or_inner with hmem | ⟨_, _, _, _, hmem, hinner⟩
    · obtain ⟨front, chunk, back, rfl, hread⟩ := exists_of_mem_readChunks hmem
      obtain ⟨start, strips, hselect⟩ := (hfinds.settled chunk (by simp)).exists_readsSelect hread
      exact ⟨front, chunk, back, rfl, hselect.marks_case hc⟩
    · obtain ⟨front, chunk, back, rfl, hread⟩ := exists_of_mem_readChunks hmem
      obtain ⟨start, strips, hselect⟩ := (hfinds.settled chunk (by simp)).exists_readsSelect hread
      obtain ⟨arm, harm, hwithin⟩ := hselect.exists_arm hinner
      obtain ⟨armsBefore, armsAfter, harms⟩ := List.append_of_mem harm
      obtain ⟨before', strip, after', rfl, -, rfl⟩ := exists_of_readStrips_eq harms
      have hshorter : strip.content.length < n := by
        have hcontent := hselect.shorter strip (by simp)
        have hspelled := congrArg List.length hfinds.spelled
        rw [spell_append, spell_cons, List.length_append, List.length_append,
          List.length_append] at hspelled
        omega
      obtain ⟨hspan, hmarks⟩ := ih strip.content.length hshorter hwithin rfl
      refine ⟨front, chunk, back, rfl, ⟨?_, hspan.nonempty, ?_⟩, ?_⟩
      · have hfirst := hspan.first_le
        have hstarts := hselect.starts
        omega
      · have hlast := hspan.le_last
        have hstops := hselect.stops
        have hwidth := strip.width_spell
        rw [List.flatMap_append, List.flatMap_cons, width_append, width_append] at hstops
        rw [Strip.inner] at hlast
        omega
      · rw [hselect.said, marks_body hselect.arms rfl hspan]
        exact hmarks

/-! ### Bodies that do not matter -/

mutual
/-- Nodes that differ in bodies of repeated cases only. -/
inductive SameNode : Node → Node → Prop
  | text (value : Text) (span : Span) : SameNode (.text value span) (.text value span)
  | placeholder (name : Text) (span : Span) :
      SameNode (.placeholder name span) (.placeholder name span)
  | select {name : Text} {cases cases' : List Case} {fallback fallback' : List Node} {span : Span} :
      SameCases [] cases cases' → SameChoice fallback fallback' →
        SameNode (.select name cases fallback span) (.select name cases' fallback' span)

/-- Lists of nodes that differ in bodies of repeated cases only, at any depth. -/
inductive SameChoice : List Node → List Node → Prop
  | nil : SameChoice [] []
  | cons {n n' : Node} {rest rest' : List Node} :
      SameNode n n' → SameChoice rest rest' → SameChoice (n :: rest) (n' :: rest')

/-- Cases behind others with the labels `earlier`. A case with one of these labels may have any
body in the place of its own. -/
inductive SameCases : List Text → List Case → List Case → Prop
  | nil {earlier : List Text} : SameCases earlier [] []
  | inside {earlier : List Text} {label : Text} {body body' : List Node} {span : Span}
      {rest rest' : List Case} :
      SameChoice body body' → SameCases (label :: earlier) rest rest' →
        SameCases earlier (⟨label, body, span⟩ :: rest) (⟨label, body', span⟩ :: rest')
  | replaced {earlier : List Text} {label : Text} {body body' : List Node} {span : Span}
      {rest rest' : List Case} :
      label ∈ earlier → SameCases (label :: earlier) rest rest' →
        SameCases earlier (⟨label, body, span⟩ :: rest) (⟨label, body', span⟩ :: rest')
end

mutual
theorem SameNode.refl (n : Node) : SameNode n n := by
  match n with
  | .text value span => exact .text value span
  | .placeholder name span => exact .placeholder name span
  | .select _ cases fallback _ => exact .select (SameCases.refl [] cases) (SameChoice.refl fallback)

/-- No body has to be replaced. -/
theorem SameChoice.refl (nodes : List Node) : SameChoice nodes nodes := by
  match nodes with
  | [] => exact .nil
  | n :: rest => exact .cons (SameNode.refl n) (SameChoice.refl rest)

theorem SameCases.refl (earlier : List Text) (cases : List Case) :
    SameCases earlier cases cases := by
  match cases with
  | [] => exact .nil
  | ⟨label, body, _⟩ :: rest =>
    exact .inside (SameChoice.refl body) (SameCases.refl (label :: earlier) rest)
end

mutual
theorem SameNode.render_eq {a b : Node} (h : SameNode a b) (values : Values) :
    renderNode values b = renderNode values a := by
  cases h with
  | text value span => rfl
  | placeholder name span => rfl
  | select hcases hfallback =>
    rw [renderNode, renderNode, hfallback.render_eq values,
      hcases.render_eq values (fun _ hown => absurd hown List.not_mem_nil)]

/-- Bodies of repeated cases do not matter. -/
theorem SameChoice.render_eq {a b : List Node} (h : SameChoice a b) (values : Values) :
    render values b = render values a := by
  cases h with
  | nil => rfl
  | cons hnode hrest => rw [render, render, hnode.render_eq values, hrest.render_eq values]

/-- A case is only come to if its label is not one of the earlier ones. -/
theorem SameCases.render_eq {earlier : List Text} {a b : List Case} (h : SameCases earlier a b)
    (values : Values) {label : Option Text} (hearlier : ∀ own ∈ earlier, label ≠ some own) :
    renderCases values label b = renderCases values label a := by
  cases h with
  | nil => rfl
  | inside hbody hrest =>
    rw [renderCases, renderCases]
    split_ifs with hlabel
    · rw [hbody.render_eq values]
    · exact hrest.render_eq values (List.forall_mem_cons.mpr ⟨hlabel, hearlier⟩)
  | replaced hmem hrest =>
    rw [renderCases, renderCases, if_neg (hearlier _ hmem), if_neg (hearlier _ hmem)]
    exact hrest.render_eq values (List.forall_mem_cons.mpr ⟨hearlier _ hmem, hearlier⟩)
end

/-! ### Cases that are never chosen -/

theorem marks_parse {pattern name : Text} {cases : List Case} {fallback : List Node}
    {span : Span} (h : Within (parse pattern).nodes (.select name cases fallback span))
    {before after : List Case} {c : Case} (hc : cases = before ++ c :: after) :
    marks c.span (parse pattern).diagnostics = caseSaid before c :=
  (marks_case h hc).2

/-- In the order of its select, a case that comes first with its label is the one that is found. -/
theorem Selection.find?_label {s : Selection} {before after : List Case} {c : Case}
    (hc : s.cases = before ++ c :: after) (hfirst : c.label ∉ before.map Case.label) :
    s.find? c.label = some c := by
  rw [Selection.find?, hc, List.find?_eq_some_iff_append]
  refine ⟨beq_self_eq_true c.label, before, after, rfl, ?_⟩
  intro e he
  have hne : e.label ≠ c.label := fun heq => hfirst (heq ▸ List.mem_map_of_mem he)
  simpa using hne

/-- A case of a pattern is reported as repeated if and only if an earlier case of its select has its
label, if and only if its select never finds it, and then it is reported once. Other bodies for such
cases, at any depth, change no rendering. -/
theorem duplicateCase_iff_unreachable (pattern : Text) :
    (∀ name cases fallback span, Within (parse pattern).nodes (.select name cases fallback span) →
      ∀ before c after, cases = before ++ c :: after →
        List.TFAE
          [∃ e ∈ before, e.label = c.label,
            ∀ value, Selection.find? ⟨name, cases, fallback, span⟩ value ≠ some c,
            ∃ d ∈ (parse pattern).diagnostics, d.problem.isDuplicateCase = true ∧ d.span = c.span,
            marks c.span (parse pattern).diagnostics = [⟨.duplicateCase c.label, c.span⟩]]) ∧
      ∀ nodes, SameChoice (parse pattern).nodes nodes →
        ∀ values, render values nodes = render values (parse pattern).nodes := by
  constructor
  · intro name cases fallback span hwithin before c after hc
    have hmarks := marks_parse hwithin hc
    tfae_have 1 → 4 := by
      intro hearlier
      rw [hmarks, caseSaid, if_pos (List.mem_map.mpr hearlier)]
    tfae_have 4 → 3 := by
      intro hsaid
      have hmem := List.mem_of_mem_filter (hsaid ▸ List.mem_singleton_self _)
      exact ⟨_, hmem, rfl, rfl⟩
    tfae_have 3 → 2 := by
      -- The same case, as the one that is found, would come first with its label and not be said.
      rintro ⟨d, hd, hkind, hspan⟩ value hfound
      obtain ⟨hlabel, front, back, hcases, hfront⟩ := List.find?_eq_some_iff_append.mp hfound
      have hquiet := marks_parse hwithin hcases
      have hfirst : c.label ∉ front.map Case.label := by
        intro hmem
        obtain ⟨e, he, heq⟩ := List.mem_map.mp hmem
        have hother := hfront e he
        rw [heq, hlabel] at hother
        contradiction
      rw [caseSaid, if_neg hfirst] at hquiet
      have hmark := mem_marks.mpr ⟨hd, hkind, hspan⟩
      rw [hquiet] at hmark
      exact List.not_mem_nil hmark
    tfae_have 2 → 1 := by
      intro hnever
      by_contra hfirst
      refine hnever c.label (Selection.find?_label hc ?_)
      rwa [List.mem_map]
    tfae_finish
  · intro nodes hsame values
    exact hsame.render_eq values

/-- A select with two cases of one label. -/
def repeatedPattern : Text := "\x7ba,select,x\x7by\x7dx\x7bz\x7dother\x7b-\x7d\x7d"

/-- The case of `repeatedPattern` that is chosen. -/
def chosenCase : Case := ⟨"x", [.text "y" ⟨12, 13⟩], ⟨10, 14⟩⟩

/-- The case of `repeatedPattern` that is never chosen, with a given body. -/
def repeatedCase (body : List Node) : Case := ⟨"x", body, ⟨14, 18⟩⟩

/-- The nodes of `repeatedPattern`, with a given body for the case that is never chosen. -/
def repeatedNodes (body : List Node) : List Node :=
  [.select "a" [chosenCase, repeatedCase body] [.text "-" ⟨24, 25⟩] ⟨0, 27⟩]

theorem duplicateCase_iff_unreachable_repeated :
    (∀ value, Selection.find?
        ⟨"a", [chosenCase, repeatedCase [.text "z" ⟨16, 17⟩]], [.text "-" ⟨24, 25⟩], ⟨0, 27⟩⟩
          value ≠ some (repeatedCase [.text "z" ⟨16, 17⟩])) ∧
      marks ⟨14, 18⟩ (parse repeatedPattern).diagnostics = [⟨.duplicateCase "x", ⟨14, 18⟩⟩] ∧
      ∀ body values, render values (repeatedNodes body) =
        render values (parse repeatedPattern).nodes := by
  have hnodes : (parse repeatedPattern).nodes = repeatedNodes [.text "z" ⟨16, 17⟩] := by
    decide +kernel
  have hwithin : Within (parse repeatedPattern).nodes (.select "a"
      [chosenCase, repeatedCase [.text "z" ⟨16, 17⟩]] [.text "-" ⟨24, 25⟩] ⟨0, 27⟩) :=
    .top (by simp [hnodes, repeatedNodes])
  obtain ⟨hcases, hrender⟩ := duplicateCase_iff_unreachable repeatedPattern
  have htfae := hcases _ _ _ _ hwithin [chosenCase] (repeatedCase [.text "z" ⟨16, 17⟩]) [] rfl
  have hearlier : ∃ e ∈ [chosenCase], e.label = (repeatedCase [.text "z" ⟨16, 17⟩]).label :=
    ⟨chosenCase, List.mem_singleton_self _, rfl⟩
  refine ⟨(htfae.out 0 1).mp hearlier, (htfae.out 0 3).mp hearlier, ?_⟩
  intro body values
  refine hrender (repeatedNodes body) ?_ values
  rw [hnodes]
  have hreplaced : SameCases ["x"] [repeatedCase [.text "z" ⟨16, 17⟩]] [repeatedCase body] :=
    .replaced (List.mem_singleton_self _) .nil
  exact .cons (.select (.inside (SameChoice.refl _) hreplaced) (SameChoice.refl _)) .nil

end Pattern

end Phrasebook
