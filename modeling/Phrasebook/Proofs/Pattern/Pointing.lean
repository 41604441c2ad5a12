import Phrasebook.Proofs.Pattern.Unmatched

/-!
# Diagnostics point at what they describe

The span of a diagnostic cuts a pattern in three: what stands in front of it, what it covers, and
what follows. Whatever a diagnostic complains about can be found there, at whatever depth it was
found: the brace or the group itself, the arm whose label is repeated, the inside of the select that
has no fallback, the text that is ignored.

What is said about a text that stands inside of another one points into both. So the proof goes
outwards, from the body of an arm to the arms of a select, to the group around them and to the level
on which the group stands.
-/

namespace Phrasebook.Pattern

open Text

/-! ### What problems are about -/

/-- A message quotes a text: it has the text between backticks. -/
def Quotes (message text : Text) : Prop := ticked text <:+: message

/-- A text is an arm: a label with any blanks around it but no braces, and a group with matching
braces. -/
def IsArm (label text : Text) : Prop :=
  ∃ padded content, text = padded ++ ('{' :: content ++ ['}']) ∧ BraceFree padded ∧
    Balanced content ∧ trim padded = label

/-- A text is the inside of a select on a name, and none of the arms there is a fallback. -/
def LacksFallback (name content : Text) : Prop :=
  ∃ heading strips last, SelectParts content heading strips last ∧ heading.name = name ∧
    ∀ strip ∈ strips, trim strip.label ≠ other

/-- What a problem says about a text, given what stands in front of the text and what follows. -/
def Problem.Fits (front text back : Text) : Problem → Prop
  | strayClosingBrace => text = ['}']
  | unterminatedBrace =>
    ['{'] <+: text ∧ back = [] ∧
      ∀ part, part <+: text → part ≠ [] → part.count '}' < part.count '{'
  | unrecognizedGroup content =>
    text = '{' :: content ++ ['}'] ∧ Balanced content ∧ isPaddedWord content = false ∧
      isSelect content = false ∧ Quotes (message (unrecognizedGroup content)) text
  | duplicateCase label =>
    IsArm label text ∧ Quotes (message (duplicateCase label)) label
  | duplicateDefault => IsArm other text
  | missingOther name =>
    ['{'] <:+ front ∧ ['}'] <+: back ∧ isSelect text = true ∧ LacksFallback name text
  | ignoredSelectText ignored =>
    BraceFree text ∧ ¬ Blank text ∧ ['}'] <+: back ∧ ignored = trim text ∧
      Quotes (message (ignoredSelectText ignored)) ignored

/-- A diagnostic points into a text that stands at an offset: its span cuts the text in three, and
the part that it covers fits its problem. -/
def PointsInto (text : Text) (offset : Nat) (d : Diagnostic) : Prop :=
  ∃ front part back, text = front ++ (part ++ back) ∧
    d.span = ⟨offset + width front, offset + width front + width part⟩ ∧
    d.problem.Fits front part back

theorem quotes_message_unrecognizedGroup (content : Text) :
    Quotes (Problem.message (.unrecognizedGroup content)) ('{' :: content ++ ['}']) := by
  have hfront : ("Unrecognized placeholder `\x7b" : Text) =
      ("Unrecognized placeholder " : Text) ++ ['`', '{'] := rfl
  have hback : ("\x7d` is emitted as text" : Text) =
      ['}', '`'] ++ (" is emitted as text" : Text) := rfl
  have hmessage : Problem.message (.unrecognizedGroup content) =
      "Unrecognized placeholder `\x7b" ++ content ++ "\x7d` is emitted as text" := rfl
  rw [hmessage, hfront, hback]
  refine ⟨"Unrecognized placeholder ", " is emitted as text", ?_⟩
  generalize ("Unrecognized placeholder " : Text) = before
  generalize (" is emitted as text" : Text) = after
  simp [ticked]

theorem quotes_message_duplicateCase (label : Text) :
    Quotes (Problem.message (.duplicateCase label)) label :=
  ⟨"Duplicate select case ", " is unreachable", rfl⟩

theorem quotes_message_ignoredSelectText (text : Text) :
    Quotes (Problem.message (.ignoredSelectText text)) text :=
  ⟨"Text ", " after the last select case is ignored", rfl⟩

/-- More text around it does not change what a problem is about, unless a brace stays open up to the
end. -/
theorem Problem.Fits.extend {problem : Problem} {front text back : Text}
    (h : problem.Fits front text back) (hmatched : problem.isUnmatched = false)
    (before after : Text) : problem.Fits (before ++ front) text (back ++ after) := by
  cases problem with
  | unterminatedBrace => contradiction
  | strayClosingBrace => exact h
  | unrecognizedGroup content => exact h
  | duplicateCase label => exact h
  | duplicateDefault => exact h
  | missingOther name =>
    obtain ⟨hfront, hback, hselect⟩ := h
    exact ⟨hfront.trans (List.suffix_append _ _), hback.trans (List.prefix_append _ _), hselect⟩
  | ignoredSelectText ignored =>
    obtain ⟨hfree, hsolid, hback, hquoted⟩ := h
    exact ⟨hfree, hsolid, hback.trans (List.prefix_append _ _), hquoted⟩

namespace PointsInto

variable {text : Text} {offset : Nat} {d : Diagnostic}

/-- What points into a part of a text points into the text. -/
theorem part {before after : Text} (h : PointsInto text (offset + width before) d)
    (hmatched : d.problem.isUnmatched = false) :
    PointsInto (before ++ (text ++ after)) offset d := by
  obtain ⟨front, covered, back, rfl, hspan, hfits⟩ := h
  refine ⟨before ++ front, covered, back ++ after, by simp, ?_, hfits.extend hmatched _ _⟩
  rw [hspan, width_append, Nat.add_assoc offset]

/-- What points at the start of a text points into the text with more behind it. -/
theorem append {after : Text} (h : PointsInto text offset d)
    (hmatched : d.problem.isUnmatched = false) : PointsInto (text ++ after) offset d :=
  @part text offset d [] after h hmatched

/-- What points into a text stays between its ends. -/
theorem bounds (h : PointsInto text offset d) :
    offset ≤ d.span.start ∧ d.span.stop ≤ offset + width text := by
  obtain ⟨front, covered, back, rfl, hspan, -⟩ := h
  rw [hspan, width_append, width_append]
  dsimp only
  omega

end PointsInto

/-! ### Arms -/

/-- Labelled groups and the text after them, as they are spelled. -/
theorem spell_stripChunks_eq (strips : List Strip) (last : Text) :
    spell (stripChunks strips last) = strips.flatMap Strip.spell ++ last := by
  induction strips with
  | nil => simpa [stripChunks] using spell_labelChunks last []
  | cons strip strips ih => simp [stripChunks, Strip.spell, Chunk.spell, ih]

/-- The literal after the last group is the text after the labelled groups. -/
theorem snd_ofSegments_place (offset : Nat) (strips : List Strip) (last : Text) :
    (Arm.ofSegments none (place offset (stripChunks strips last))).2 =
      if last = [] then none
      else some ⟨last, offset + width (strips.flatMap Strip.spell),
        offset + width (strips.flatMap Strip.spell) + width last⟩ := by
  induction strips generalizing offset with
  | nil =>
    by_cases hlast : last = []
    · simp [stripChunks, labelChunks, hlast, place, Arm.ofSegments]
    · simp [stripChunks, labelChunks, hlast, place, Arm.ofSegments]
  | cons strip strips ih =>
    have hnext : offset + width strip.label + (width strip.content + 2) =
        offset + width strip.spell := by
      rw [strip.width_spell, Nat.add_assoc]
    rw [List.flatMap_cons, width_append, ← Nat.add_assoc, ← ih, ← hnext]
    by_cases hlabel : strip.label = []
    · simp [stripChunks, labelChunks, hlabel, place, Arm.ofSegments]
    · simp [stripChunks, labelChunks, hlabel, place, Arm.ofSegments]

theorem map_label_readStrips (offset : Nat) (strips : List Strip) :
    (readStrips offset strips).map ReadArm.label = strips.map fun strip => trim strip.label := by
  induction strips generalizing offset with
  | nil => rfl
  | cons strip strips ih => rw [readStrips, List.map_cons, ih, List.map_cons, Strip.read]

/-- What is said about a repeated label is about the arm that has it. -/
theorem fits_repeated {strip : Strip} (hlabel : BraceFree strip.label)
    (hcontent : Balanced strip.content) (front back : Text) {problem : Problem}
    (hproblem : problem = if trim strip.label = other then .duplicateDefault
      else .duplicateCase (trim strip.label)) :
    problem.isUnmatched = false ∧ problem.Fits front strip.spell back := by
  have harm : IsArm (trim strip.label) strip.spell :=
    ⟨strip.label, strip.content, rfl, hlabel, hcontent, rfl⟩
  split_ifs at hproblem with hother
  · rw [hother] at harm
    rw [hproblem]
    exact ⟨rfl, harm⟩
  · rw [hproblem]
    exact ⟨rfl, harm, quotes_message_duplicateCase _⟩

/-- What is said about arms points into them, if what is said about their bodies does. -/
theorem pointsInto_readStrips {strips : List Strip}
    (harms : ∀ strip ∈ strips, BraceFree strip.label ∧ Balanced strip.content)
    (hbodies : ∀ strip ∈ strips, ∀ base, ∀ d ∈ (parseAt strip.content base).diagnostics,
      PointsInto strip.content base d) (earlier : List Text) (offset : Nat) :
    ∀ d ∈ ReadArm.diagnostics earlier (readStrips offset strips),
      d.problem.isUnmatched = false ∧ PointsInto (strips.flatMap Strip.spell) offset d := by
  induction strips generalizing earlier offset with
  | nil => simp [readStrips, ReadArm.diagnostics]
  | cons strip strips ih =>
    rw [List.forall_mem_cons] at harms hbodies
    obtain ⟨⟨hlabel, hcontent⟩, harms⟩ := harms
    obtain ⟨hbody, hbodies⟩ := hbodies
    intro d hd
    rw [readStrips, ReadArm.diagnostics, List.mem_append, List.mem_append] at hd
    rw [List.flatMap_cons]
    rcases hd with (hd | hd) | hd
    · have hmatched := hcontent.not_isUnmatched _ d hd
      have hinner : offset + strip.inner = offset + width (strip.label ++ ['{']) := by
        rw [Strip.inner, width_append]
        rfl
      have hpoints := hbody _ d hd
      rw [hinner] at hpoints
      have hparts : strip.spell ++ strips.flatMap Strip.spell =
          (strip.label ++ ['{']) ++ (strip.content ++ ('}' :: strips.flatMap Strip.spell)) := by
        simp [Strip.spell]
      rw [hparts]
      exact ⟨hmatched, hpoints.part hmatched⟩
    · by_cases hrepeated : trim strip.label ∈ earlier
      · rw [if_pos (c := (strip.read offset).label ∈ earlier) hrepeated] at hd
        obtain rfl := List.mem_singleton.mp hd
        obtain ⟨hmatched, hfits⟩ :=
          fits_repeated hlabel hcontent [] (strips.flatMap Strip.spell) rfl
        exact ⟨hmatched, [], strip.spell, _, rfl, rfl, hfits⟩
      · rw [if_neg (c := (strip.read offset).label ∈ earlier) hrepeated] at hd
        contradiction
    · obtain ⟨hmatched, hpoints⟩ := ih harms hbodies _ _ d hd
      refine ⟨hmatched, ?_⟩
      have hpart := @PointsInto.part _ offset d strip.spell [] hpoints hmatched
      rwa [List.append_nil] at hpart

/-! ### Groups -/

section Groups

variable {content : Text} (hcontent : Balanced content)
  (ih : ∀ (inner : Text) (base : Nat), inner.length < content.length → Balanced inner →
    ∀ d ∈ (parseAt inner base).diagnostics, PointsInto inner base d)

include hcontent ih

/-- What is said about a select points into its group. -/
theorem pointsInto_select (hword : isPaddedWord content = false)
    (hheader : (Header.read? content).isSome = true) (offset : Nat) :
    ∀ d ∈ (selectionWith parseAt content (offset + 1)).2,
      PointsInto ('{' :: content ++ ['}']) offset d := by
  obtain ⟨heading, strips, last, hparts⟩ := exists_selectParts hcontent hheader
  have hgroup : '{' :: content ++ ['}'] =
      ('{' :: heading.spell) ++ (strips.flatMap Strip.spell ++ (last ++ ['}'])) := by
    rw [hparts.spelled, spell_stripChunks_eq]
    simp
  have hstart : offset + 1 + width heading.spell = offset + width ('{' :: heading.spell) := by
    rw [width_cons, ← Nat.add_assoc]
    rfl
  intro d hd
  rw [selectionWith_eq, hcontent.afterHeader.scan_diagnostics, List.nil_append,
    hparts.readArms_eq, hparts.afterHeaderAt_eq, hstart] at hd
  simp only [List.mem_append] at hd
  rcases hd with (hd | hd) | hd
  · have hbodies : ∀ strip ∈ strips, ∀ base, ∀ d ∈ (parseAt strip.content base).diagnostics,
        PointsInto strip.content base d := by
      intro strip hstrip base
      have hlength := @length_content_lt strips last strip hstrip
      refine ih strip.content base ?_ (hparts.arms strip hstrip).2
      rw [hparts.spelled, List.length_append]
      omega
    obtain ⟨hmatched, hpoints⟩ := pointsInto_readStrips hparts.arms hbodies _ _ d hd
    rw [hgroup]
    exact hpoints.part hmatched
  · rw [armsOf, hparts.ofText_afterHeader, snd_ofSegments_place] at hd
    split_ifs at hd with hlast
    · simp [Label.diagnostics] at hd
    · rw [Label.diagnostics] at hd
      split_ifs at hd with hblank
      · simp at hd
      · obtain rfl := List.mem_singleton.mp hd
        refine ⟨('{' :: heading.spell) ++ strips.flatMap Strip.spell, last, ['}'], ?_, ?_, ?_⟩
        · rw [hgroup]
          simp
        · rw [Nat.zero_add, Span.shift_from, width_append, Nat.add_assoc offset]
        · refine ⟨hparts.last, fun h => hblank ?_, List.prefix_refl _, rfl,
            quotes_message_ignoredSelectText _⟩
          rw [h.trim_eq_nil]
          rfl
  · rw [missingOther] at hd
    split_ifs at hd with hfallback
    · simp at hd
    · obtain rfl := List.mem_singleton.mp hd
      refine ⟨['{'], content, ['}'], rfl, rfl, List.suffix_refl _, List.prefix_refl _, ?_, ?_⟩
      · rw [isSelect, hword, hheader]
        rfl
      · refine ⟨heading, strips, last, hparts, ?_, ?_⟩
        · rw [hparts.spelled, hparts.valid.read?_append]
          rfl
        · intro strip hstrip hother
          apply hfallback
          rw [ReadArm.isSome_fallback?, map_label_readStrips]
          exact List.mem_map.mpr ⟨strip, hstrip, hother⟩

/-- What is said about a group points into it. -/
theorem pointsInto_group (offset : Nat) :
    ∀ d ∈ (groupWith parseAt content ⟨offset, offset + (width content + 2)⟩).diagnostics,
      PointsInto ('{' :: content ++ ['}']) offset d := by
  intro d hd
  rw [groupWith] at hd
  split_ifs at hd with hword hheader
  · simp at hd
  · exact pointsInto_select hcontent ih (by simpa using hword) hheader offset d hd
  · obtain rfl := List.mem_singleton.mp hd
    have hwidth : width content + 2 = width ('{' :: content ++ ['}']) :=
      (width_spell_group content).symm
    refine ⟨[], '{' :: content ++ ['}'], [], by simp, ?_, rfl, hcontent, by simpa using hword, ?_,
      ?_⟩
    · rw [← hwidth]
      rfl
    · simp [isSelect, hheader]
    · exact quotes_message_unrecognizedGroup content

end Groups

/-! ### Levels -/

/-- What is said about chunks points into what they spell. -/
theorem pointsInto_readChunks {chunks : List Chunk} (hsettled : ∀ chunk ∈ chunks, chunk.Settled)
    (ih : ∀ (inner : Text) (base : Nat), inner.length < (spell chunks).length → Balanced inner →
      ∀ d ∈ (parseAt inner base).diagnostics, PointsInto inner base d) (offset : Nat) :
    ∀ d ∈ (readChunks offset chunks).diagnostics, PointsInto (spell chunks) offset d := by
  induction chunks generalizing offset with
  | nil => simp [readChunks]
  | cons chunk chunks ihchunks =>
    intro d hd
    have hmatched := not_isUnmatched_readChunks hsettled
      (fun inner base _ hbalanced => hbalanced.not_isUnmatched base) offset d hd
    rw [List.forall_mem_cons] at hsettled
    rw [spell_cons, List.length_append] at ih
    rw [spell_cons]
    rcases List.mem_append.mp hd with hd | hd
    · cases chunk with
      | literal text => simp [Chunk.read] at hd
      | group content =>
        refine (pointsInto_group hsettled.1 (fun inner base hinner => ih inner base ?_) _ d
          hd).append hmatched
        simp only [Chunk.spell, List.length_append, List.length_cons]
        omega
    · have hpoints := ihchunks hsettled.2 (fun inner base hinner => ih inner base (by omega)) _ d hd
      have hpart := @PointsInto.part _ offset d chunk.spell [] hpoints hmatched
      rwa [List.append_nil] at hpart

/-- What is said about a text with matching braces points into it. -/
theorem Balanced.pointsInto {text : Text} (h : Balanced text) (base : Nat) :
    ∀ d ∈ (parseAt text base).diagnostics, PointsInto text base d := by
  induction hlength : text.length using Nat.strong_induction_on generalizing text base with
  | _ n ih =>
    obtain ⟨chunks, tail, hfinds⟩ := exists_finds text
    rw [parseAt_eq_readChunks hfinds, h.scan_diagnostics]
    have hspelled := congrArg List.length hfinds.spelled
    rw [List.length_append] at hspelled
    intro d hd
    have hmatched := not_isUnmatched_readChunks hfinds.settled
      (fun inner base _ hbalanced => hbalanced.not_isUnmatched base) base d hd
    rw [hfinds.spelled]
    refine (pointsInto_readChunks hfinds.settled (fun inner start hinner hbalanced => ?_) base d
      hd).append hmatched
    exact ih inner.length (by omega) hbalanced start rfl

/-- What is said about the braces of a pattern points at them. -/
theorem pointsInto_scan (pattern : Text) :
    ∀ d ∈ (Scan.ofText pattern).diagnostics 0, PointsInto pattern 0 d := by
  intro d hd
  rw [Scan.diagnostics, List.mem_append, List.mem_map, List.mem_map] at hd
  rcases hd with ⟨i, hi, rfl⟩ | ⟨span, hspan, rfl⟩
  · obtain ⟨front, c, back, rfl, rfl, -, hsinks⟩ :=
      (Scan.mem_strays_run Scan.State.Bounded.start).mp hi
    obtain rfl := hsinks.eq_closing
    exact ⟨front, ['}'], back, rfl, by simp; rfl, rfl⟩
  · rw [Option.mem_toList] at hspan
    obtain ⟨hclosed, hopen⟩ := @Scan.unterminated_run {} [] rfl rfl (by simp) pattern
    rw [List.nil_append] at hclosed hopen
    have hdepth : 0 < depth pattern := by
      by_contra hdepth
      rw [Scan.ofText, hclosed (by omega)] at hspan
      contradiction
    obtain ⟨offset, ⟨front, back, rfl, rfl, hzero, hparts⟩, hunterminated⟩ := hopen hdepth
    rw [Scan.ofText, hunterminated] at hspan
    obtain rfl := Option.some_inj.mp hspan
    refine ⟨front, back, [], by simp, ?_, ?_, rfl, ?_⟩
    · simp [Span.shift]
    · cases back with
      | nil =>
        rw [depth_append, hzero, depth_nil] at hdepth
        omega
      | cons c back =>
        obtain rfl := depth_pos_iff.mp (hparts [c] ⟨back, rfl⟩ (by simp))
        exact ⟨back, rfl⟩
    · intro part hpart hne
      have hcount := hparts part hpart hne
      rw [depth] at hcount
      omega

/-- What is said about a pattern points into it. -/
theorem pointsInto_parse (pattern : Text) :
    ∀ d ∈ (parse pattern).diagnostics, PointsInto pattern 0 d := by
  intro d hd
  obtain ⟨chunks, tail, hfinds⟩ := exists_finds pattern
  rw [parse, parseAt_eq_readChunks hfinds] at hd
  rcases List.mem_append.mp hd with hd | hd
  · exact pointsInto_scan pattern d hd
  · have hmatched := not_isUnmatched_readChunks hfinds.settled
      (fun inner base _ hbalanced => hbalanced.not_isUnmatched base) 0 d hd
    rw [hfinds.spelled]
    exact (pointsInto_readChunks hfinds.settled
      (fun inner base _ hbalanced => hbalanced.pointsInto base) 0 d hd).append hmatched

/-- Every diagnostic of a pattern, at whatever depth it was found, points at what it describes: its
span covers a part of the pattern, and that part fits the problem. -/
theorem diagnostics_point (pattern : Text) :
    ∀ d ∈ (parse pattern).diagnostics, ∃ front text back, pattern = front ++ (text ++ back) ∧
      d.span = ⟨width front, width front + width text⟩ ∧ d.span.slice? pattern = some text ∧
      d.problem.Fits front text back := by
  intro d hd
  obtain ⟨front, text, back, rfl, hspan, hfits⟩ := pointsInto_parse pattern d hd
  rw [Nat.zero_add] at hspan
  refine ⟨front, text, back, rfl, hspan, ?_, hfits⟩
  rw [hspan]
  exact Span.slice?_append front text back

/-- A stray brace, a case with a select that repeats a label and has no fallback, a text that is
ignored, and a brace that stays open. -/
def crowdedPattern : Text :=
  "ü\x7d\x7b\x7ba,select,x\x7b\x7bb,select,y\x7b\x7dy\x7bü\x7d\x7d\x7dother\x7b\x7d z\x7d\x7bc"

theorem diagnostics_point_crowded :
    ⟨.duplicateCase "y", ⟨29, 34⟩⟩ ∈ (parse crowdedPattern).diagnostics ∧
      ⟨.missingOther "b", ⟨17, 34⟩⟩ ∈ (parse crowdedPattern).diagnostics ∧
      (∃ front text back, crowdedPattern = front ++ (text ++ back) ∧
        (⟨29, 34⟩ : Span) = ⟨width front, width front + width text⟩ ∧
        Span.slice? ⟨29, 34⟩ crowdedPattern = some text ∧
        Problem.Fits front text back (.duplicateCase "y")) ∧
      ∃ front text back, crowdedPattern = front ++ (text ++ back) ∧
        (⟨17, 34⟩ : Span) = ⟨width front, width front + width text⟩ ∧
        Span.slice? ⟨17, 34⟩ crowdedPattern = some text ∧
        Problem.Fits front text back (.missingOther "b") := by
  have hsaid : (parse crowdedPattern).diagnostics =
      [⟨.strayClosingBrace, ⟨2, 3⟩⟩, ⟨.unterminatedBrace, ⟨46, 48⟩⟩, ⟨.duplicateCase "y", ⟨29, 34⟩⟩,
        ⟨.missingOther "b", ⟨17, 34⟩⟩, ⟨.ignoredSelectText "z", ⟨43, 45⟩⟩] := by
    decide +kernel
  have hcase : ⟨.duplicateCase "y", ⟨29, 34⟩⟩ ∈ (parse crowdedPattern).diagnostics := by
    simp [hsaid]
  have hmissing : ⟨.missingOther "b", ⟨17, 34⟩⟩ ∈ (parse crowdedPattern).diagnostics := by
    simp [hsaid]
  exact ⟨hcase, hmissing, diagnostics_point crowdedPattern _ hcase,
    diagnostics_point crowdedPattern _ hmissing⟩

end Phrasebook.Pattern
