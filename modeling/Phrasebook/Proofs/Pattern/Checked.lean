import Phrasebook.Proofs.Lists
import Phrasebook.Proofs.Pattern.ByteScan
import Phrasebook.Proofs.Pattern.Recognition
import Phrasebook.Proofs.Pattern.Unmatched

/-!
# Reading with checks

On a machine, offsets are numbers of bounded size, and a text can only be cut between two
characters. A sum that is too large and a cut that is not there stop the reader. This module reads
patterns with all of these checks in place: for each sum of offsets, for each cut and for the depth
of the scan. It never fails, and it reads what is read without the checks. Not even the length of
the text is ever passed by a sum, because whatever an offset is computed for lies in the text.
-/

namespace Phrasebook

/-- The sum of two offsets, unless it passes the limit. -/
def sum? (limit a b : Nat) : Option Nat := if a + b ≤ limit then some (a + b) else none

theorem sum?_eq {limit a b : Nat} (h : a + b ≤ limit) : sum? limit a b = some (a + b) := if_pos h

namespace Span

/-- The span moved right, unless an end passes the limit. -/
def shiftWithin? (limit : Nat) (s : Span) (distance : Nat) : Option Span := do
  let start ← sum? limit s.start distance
  let stop ← sum? limit s.stop distance
  return ⟨start, stop⟩

theorem shiftWithin?_eq {limit : Nat} {s : Span} {distance : Nat} (hstart : s.start ≤ s.stop)
    (hstop : distance + s.stop ≤ limit) :
    s.shiftWithin? limit distance = some (s.shift distance) := by
  rw [shiftWithin?, sum?_eq (by omega), sum?_eq (by omega)]
  rfl

/-- The range of offsets is the limit of the checked move. -/
theorem shiftWithin?_last (s : Span) (distance : Nat) :
    s.shiftWithin? (offsetRange - 1) distance = s.shift? distance := by
  have hpos : 0 < offsetRange := by decide
  by_cases hstart : s.start + distance < offsetRange
  · by_cases hstop : s.stop + distance < offsetRange
    · rw [shift?, if_pos ⟨hstart, hstop⟩, shiftWithin?, sum?_eq (by omega), sum?_eq (by omega)]
      rfl
    · rw [shift?, if_neg (fun h => hstop h.2), shiftWithin?, sum?_eq (by omega), sum?,
        if_neg (by omega)]
      rfl
  · rw [shift?, if_neg (fun h => hstart h.1), shiftWithin?, sum?, if_neg (by omega)]
    rfl

end Span

namespace Pattern

open Text

/-! ### The checked reader -/

/-- What is said about a closing brace that was never opened, with checks. -/
def stray? (limit base offset : Nat) : Option Diagnostic := do
  let start ← sum? limit base offset
  let stop ← sum? limit start 1
  return ⟨.strayClosingBrace, ⟨start, stop⟩⟩

/-- What is said about a brace that is never closed, with checks. -/
def unterminated? (limit base : Nat) (span : Span) : Option Diagnostic := do
  return ⟨.unterminatedBrace, ← span.shiftWithin? limit base⟩

/-- What is said about braces that do not match, with checks. -/
def Scan.diagnostics? (limit : Nat) (scan : Scan) (base : Nat) : Option (List Diagnostic) := do
  let strays ← scan.strays.mapM (stray? limit base)
  let unterminated ← scan.unterminated.toList.mapM (unterminated? limit base)
  return strays ++ unterminated

/-- The arms among segments, with checks, and the literal after the last one. -/
def readArms? (limit : Nat) (body? : Text → Nat → Option Parsed) (base : Nat)
    (pending : Option Label) : List Segment → Option (List ReadArm × Option Label)
  | [] => some ([], pending)
  | .literal text span :: rest => readArms? limit body? base (some ⟨text, span⟩) rest
  | .group content span :: rest => do
    let label := pending.getD ⟨[], .point span.start⟩
    let place ← (label.span.cover span).shiftWithin? limit base
    let opening ← sum? limit base span.start
    let start ← sum? limit opening 1
    let body ← body? content start
    let (arms, last) ← readArms? limit body? base none rest
    return (⟨trim label.text, place, body⟩ :: arms, last)

/-- What is said about the literal after the last arm, with checks. -/
def Label.diagnostics? (limit : Nat) (last : Option Label) (base : Nat) :
    Option (List Diagnostic) :=
  match last with
  | none => some []
  | some label => do
    let text := trim label.text
    if text.isEmpty then
      return []
    else
      return [⟨.ignoredSelectText text, ← label.span.shiftWithin? limit base⟩]

/-- The select inside of a text, with checks. -/
def selectionWith? (limit : Nat) (body? : Text → Nat → Option Parsed) (text : Text) (base : Nat) :
    Option (Selection × List Diagnostic) := do
  let header := (Header.read? text).getD ⟨[], text⟩
  let headerWidth := width text - width header.rest
  let stop ← sum? limit base (width text % Span.offsetRange)
  let armsBase ← sum? limit base (headerWidth % Span.offsetRange)
  let rest ← Span.slice? ⟨headerWidth, width text⟩ text
  let scan ← Scan.ofBytes? limit rest
  let scanned ← scan.diagnostics? limit armsBase
  let (arms, last) ← readArms? limit body? armsBase none scan.segments
  let ignored ← Label.diagnostics? limit last armsBase
  let fallback := ReadArm.fallback? arms
  let missing := if fallback.isSome then [] else [⟨.missingOther header.name, ⟨base, stop⟩⟩]
  return (⟨header.name, ReadArm.cases arms, fallback.getD (emptyBody ⟨base, stop⟩), ⟨base, stop⟩⟩,
    scanned ++ ReadArm.diagnostics [] arms ++ ignored ++ missing)

/-- The node of a group, with checks. -/
def groupWith? (limit : Nat) (body? : Text → Nat → Option Parsed) (content : Text) (span : Span) :
    Option Parsed := do
  if isPaddedWord content then
    return { nodes := [.placeholder (trim content) span] }
  else if (Header.read? content).isSome then
    let base ← sum? limit span.start 1
    let (selection, diagnostics) ← selectionWith? limit body? content base
    return { nodes := [selection.nodeAt span], diagnostics }
  else
    return { nodes := [.text content span], diagnostics := [⟨.unrecognizedGroup content, span⟩] }

/-- The node of a segment, with checks. -/
def segmentWith? (limit : Nat) (body? : Text → Nat → Option Parsed) (base : Nat) :
    Segment → Option Parsed
  | .literal literal span => do return { nodes := [.text literal (← span.shiftWithin? limit base)] }
  | .group content span => do groupWith? limit body? content (← span.shiftWithin? limit base)

/-- The nodes of a text, with checks. -/
def nodesWith? (limit : Nat) (body? : Text → Nat → Option Parsed) (text : Text) (base : Nat) :
    Option Parsed := do
  let scan ← Scan.ofBytes? limit text
  let scanned ← scan.diagnostics? limit base
  let parts ← scan.segments.mapM (segmentWith? limit body? base)
  return Parsed.append { diagnostics := scanned } (Parsed.concat parts)

/-- The nodes of a text that starts at `base`, with checks. A body that is not shorter than the text
around it fails as well. -/
def parseAt? (limit : Nat) (text : Text) (base : Nat) : Option Parsed :=
  nodesWith? limit
    (fun inner start => if inner.length < text.length then parseAt? limit inner start else none)
    text base
termination_by text.length

/-- Reads a pattern with checks. -/
def parse? (limit : Nat) (pattern : Text) : Option Parsed := parseAt? limit pattern 0

/-- Reads the inside of a select with checks. -/
def parseSelection? (limit : Nat) (text : Text) : Option Selection :=
  (selectionWith? limit (parseAt? limit) text 0).map Prod.fst

/-! ### What a scan finds lies in its text -/

/-- A segment lies in a text of a given length. -/
def Segment.Inside (length : Nat) : Segment → Prop
  | literal _ span => span.start ≤ span.stop ∧ span.stop ≤ length
  | group content span => span.start + width content + 2 = span.stop ∧ span.stop ≤ length

theorem Segment.Inside.mono {segment : Segment} {length more : Nat} (h : segment.Inside length)
    (hle : length ≤ more) : segment.Inside more := by
  cases segment with
  | literal text span => exact ⟨h.1, Nat.le_trans h.2 hle⟩
  | group content span => exact ⟨h.1, Nat.le_trans h.2 hle⟩

theorem inside_of_mem_place {offset : Nat} {chunks : List Chunk} {segment : Segment}
    (h : segment ∈ place offset chunks) : segment.Inside (offset + width (spell chunks)) := by
  induction chunks generalizing offset with
  | nil => simp [place] at h
  | cons chunk chunks ih =>
    rw [place_cons, List.mem_append] at h
    rw [spell_cons, width_append, ← Nat.add_assoc]
    rcases h with h | h
    · cases chunk with
      | literal text =>
        obtain rfl := List.mem_singleton.mp h
        exact ⟨Nat.le_add_right _ _, Nat.le_add_right _ _⟩
      | group content =>
        obtain rfl := List.mem_singleton.mp h
        rw [width_spell_group]
        exact ⟨Nat.add_assoc _ _ _, Nat.le_add_right _ _⟩
    · exact ih h

/-- The segments of a scan lie in its text. -/
theorem inside_of_mem_segments {text : Text} {segment : Segment}
    (h : segment ∈ (Scan.ofText text).segments) : segment.Inside (width text) := by
  obtain ⟨chunks, tail, hfinds⟩ := exists_finds text
  rw [hfinds.segments] at h
  apply (inside_of_mem_place h).mono
  rw [hfinds.spelled, width_append, Nat.zero_add]
  exact Nat.le_add_right _ _

theorem lt_of_mem_strays {text : Text} {i : Nat} (h : i ∈ (Scan.ofText text).strays) :
    i < width text := by
  obtain ⟨front, c, back, rfl, rfl, -, -⟩ := (Scan.mem_strays_run Scan.State.Bounded.start).mp h
  have hsize := c.utf8Size_pos
  rw [width_append, width_cons, Nat.zero_add]
  omega

theorem unterminated_inside {text : Text} {span : Span}
    (h : (Scan.ofText text).unterminated = some span) :
    span.start ≤ span.stop ∧ span.stop = width text := by
  obtain ⟨chunks, tail, hfinds⟩ := exists_finds text
  have hwidth := congrArg width hfinds.spelled
  rw [width_append] at hwidth
  rw [hfinds.unterminated] at h
  split_ifs at h
  obtain rfl := Option.some_inj.mp h
  exact ⟨by dsimp only; omega, Nat.zero_add _⟩

/-- What is said about braces passes its checks. -/
theorem Scan.diagnostics?_eq {limit base : Nat} {text : Text} (h : base + width text ≤ limit) :
    (Scan.ofText text).diagnostics? limit base = some ((Scan.ofText text).diagnostics base) := by
  have hstrays : ∀ offset ∈ (Scan.ofText text).strays, stray? limit base offset =
      some ⟨.strayClosingBrace, ⟨base + offset, base + offset + 1⟩⟩ := by
    intro offset hoffset
    have hlt := lt_of_mem_strays hoffset
    rw [stray?, sum?_eq (by omega), Option.bind_eq_bind, Option.bind_some, sum?_eq (by omega)]
    rfl
  have hopen : ∀ span ∈ (Scan.ofText text).unterminated.toList, unterminated? limit base span =
      some ⟨.unterminatedBrace, span.shift base⟩ := by
    intro span hspan
    obtain ⟨hle, hstop⟩ := unterminated_inside (Option.mem_toList.mp hspan)
    rw [unterminated?, Span.shiftWithin?_eq hle (by omega)]
    rfl
  rw [Scan.diagnostics?, Lists.mapM_of_forall hstrays, Lists.mapM_of_forall hopen]
  rfl

/-! ### Arms pass their checks -/

section Arms

variable {limit base length : Nat} {segments : List Segment} {pending : Option Label}

/-- A literal that may be a label lies in a text of a given length. -/
def Label.Inside (length : Nat) (label : Label) : Prop :=
  label.span.start ≤ label.span.stop ∧ label.span.stop ≤ length

/-- The literal after the last arm lies where the segments lie. -/
theorem Arm.inside_last (hinside : ∀ segment ∈ segments, segment.Inside length)
    (hpending : ∀ label ∈ pending, label.Inside length) :
    ∀ label ∈ (Arm.ofSegments pending segments).2, label.Inside length := by
  induction segments generalizing pending with
  | nil => exact hpending
  | cons segment segments ih =>
    obtain ⟨hfirst, hrest⟩ := List.forall_mem_cons.mp hinside
    cases segment with
    | literal text span =>
      apply ih hrest
      rintro _ ⟨rfl⟩
      exact hfirst
    | group content span => exact ih hrest (by simp)

/-- Arms pass their checks if their bodies do. -/
theorem readArms?_eq {body? : Text → Nat → Option Parsed} (hlimit : base + length ≤ limit)
    (hinside : ∀ segment ∈ segments, segment.Inside length)
    (hpending : ∀ label ∈ pending, label.Inside length)
    (hbody : ∀ content span, .group content span ∈ segments →
      body? content (base + span.start + 1) = some (parseAt content (base + span.start + 1))) :
    readArms? limit body? base pending segments =
      some ((Arm.ofSegments pending segments).1.map fun arm =>
          (⟨arm.label, arm.span.shift base, parseAt arm.content (base + arm.start)⟩ : ReadArm),
        (Arm.ofSegments pending segments).2) := by
  induction segments generalizing pending with
  | nil => rfl
  | cons segment segments ih =>
    obtain ⟨hfirst, hrest⟩ := List.forall_mem_cons.mp hinside
    have hbodies : ∀ content span, .group content span ∈ segments →
        body? content (base + span.start + 1) = some (parseAt content (base + span.start + 1)) :=
      fun content span hmem => hbody content span (List.mem_cons_of_mem _ hmem)
    cases segment with
    | literal text span =>
      rw [readArms?, ih hrest _ hbodies]
      · rfl
      · rintro _ ⟨rfl⟩
        exact hfirst
    | group content span =>
      obtain ⟨hwidth, hstop⟩ := hfirst
      have hlabel : (pending.getD ⟨[], .point span.start⟩).Inside length := by
        cases pending with
        | none => exact ⟨Nat.le_refl _, by simp only [Option.getD_none, Span.point]; omega⟩
        | some label => exact hpending label rfl
      have hplace :
          ((pending.getD ⟨[], .point span.start⟩).span.cover span).shiftWithin? limit base =
            some (((pending.getD ⟨[], .point span.start⟩).span.cover span).shift base) := by
        obtain ⟨hle, hlast⟩ := hlabel
        apply Span.shiftWithin?_eq
        · simp only [Span.cover]
          omega
        · simp only [Span.cover]
          omega
      rw [readArms?, hplace, sum?_eq (by omega)]
      simp only [Option.bind_eq_bind, Option.bind_some]
      rw [sum?_eq (by omega), Option.bind_some, hbody content span List.mem_cons_self,
        Option.bind_some, ih hrest (by simp) hbodies, Nat.add_assoc base]
      rfl

/-- What is said about the literal after the last arm passes its checks. -/
theorem Label.diagnostics?_eq {last : Option Label} (hlimit : base + length ≤ limit)
    (hlast : ∀ label ∈ last, label.Inside length) :
    Label.diagnostics? limit last base = some (Label.diagnostics last base) := by
  cases last with
  | none => rfl
  | some label =>
    obtain ⟨hle, hstop⟩ := hlast label rfl
    rw [Label.diagnostics?, Label.diagnostics, Span.shiftWithin?_eq hle (by omega)]
    split_ifs
    · rfl
    · rfl

end Arms

/-! ### Levels pass their checks -/

theorem exists_eq_append_afterHeader (text : Text) : ∃ front, text = front ++ afterHeader text := by
  rw [afterHeader]
  cases hread : Header.read? text with
  | none => exact ⟨[], rfl⟩
  | some header =>
    obtain ⟨heading, -, -, rfl⟩ := Heading.exists_of_read? hread
    exact ⟨heading.spell, rfl⟩

section Reader

variable {limit n : Nat} {body? : Text → Nat → Option Parsed}
  (hbody : ∀ inner start, inner.length < n → start + width inner ≤ limit →
    body? inner start = some (parseAt inner start))
  (hlimit : limit < Span.offsetRange)

include hbody

/-- The arms of a select pass their checks if their bodies do. -/
theorem readArms?_afterHeader {text : Text} {base : Nat} (hlength : text.length ≤ n)
    (h : base + width (afterHeader text) ≤ limit) :
    readArms? limit body? base none (Scan.ofText (afterHeader text)).segments =
      some ((armsOf text).1.map fun arm =>
          (⟨arm.label, arm.span.shift base, parseAt arm.content (base + arm.start)⟩ : ReadArm),
        (armsOf text).2) := by
  refine readArms?_eq h (fun segment hmem => inside_of_mem_segments hmem) (by simp) ?_
  intro content span hmem
  obtain ⟨hspan, hstop⟩ := inside_of_mem_segments hmem
  have hshort := length_group_lt hmem
  have hle := length_afterHeader_le text
  exact hbody content _ (by omega) (by omega)

include hlimit

/-- A select passes its checks if its bodies do. -/
theorem selectionWith?_eq {text : Text} {base : Nat} (hlength : text.length ≤ n)
    (h : base + width text ≤ limit) :
    selectionWith? limit body? text base = some (selectionWith parseAt text base) := by
  obtain ⟨front, hfront⟩ := exists_eq_append_afterHeader text
  have hwidth := congrArg width hfront
  rw [width_append] at hwidth
  have hrest : ((Header.read? text).getD ⟨[], text⟩).rest = afterHeader text := rfl
  have hheader : width text - width (afterHeader text) = width front := by omega
  have hslice : Span.slice? ⟨width front, width text⟩ text = some (afterHeader text) := by
    have hparts := Span.slice?_append front (afterHeader text) []
    rwa [List.append_nil, ← hfront, ← hwidth] at hparts
  have harms : base + width front + width (afterHeader text) ≤ limit := by omega
  have hstop : sum? limit base (width text % Span.offsetRange) = some (base + width text) := by
    rw [Nat.mod_eq_of_lt (by omega), sum?_eq h]
  have hbase : sum? limit base (width front % Span.offsetRange) = some (base + width front) := by
    rw [Nat.mod_eq_of_lt (by omega), sum?_eq (by omega)]
  have hscan : Scan.ofBytes? limit (afterHeader text) = some (Scan.ofText (afterHeader text)) :=
    Scan.ofBytes?_eq hlimit (by omega)
  have hlast : ∀ label ∈ (armsOf text).2, label.Inside (width (afterHeader text)) :=
    Arm.inside_last (fun segment hmem => inside_of_mem_segments hmem) (by simp)
  simp only [selectionWith?, hrest, hheader, hstop, hbase, hslice, hscan,
    Scan.diagnostics?_eq harms, readArms?_afterHeader hbody hlength harms,
    Label.diagnostics?_eq harms hlast, Option.bind_eq_bind, Option.bind_some]
  rw [selectionWith_eq, readArms, missingOther, afterHeaderAt, hheader]
  rfl

/-- A group passes its checks if the bodies in it do. -/
theorem groupWith?_eq {content : Text} {span : Span} (hlength : content.length ≤ n)
    (hwidth : span.start + width content + 2 = span.stop) (h : span.stop ≤ limit) :
    groupWith? limit body? content span = some (groupWith parseAt content span) := by
  rw [groupWith?, groupWith]
  split_ifs
  · rfl
  · rw [sum?_eq (by omega), Option.bind_eq_bind, Option.bind_some,
      selectionWith?_eq hbody hlimit hlength (by omega)]
    rfl
  · rfl

/-- A text passes its checks if the bodies in it do. -/
theorem nodesWith?_eq {text : Text} {base : Nat} (hlength : text.length ≤ n)
    (h : base + width text ≤ limit) :
    nodesWith? limit body? text base = some (nodesWith parseAt text base) := by
  have hsegments : ∀ segment ∈ (Scan.ofText text).segments,
      segmentWith? limit body? base segment = some (segmentWith parseAt base segment) := by
    intro segment hmem
    have hinside := inside_of_mem_segments hmem
    cases segment with
    | literal literal span =>
      obtain ⟨hle, hstop⟩ := hinside
      rw [segmentWith?, Span.shiftWithin?_eq hle (by omega)]
      rfl
    | group content span =>
      obtain ⟨hwidth, hstop⟩ := hinside
      have hshort := length_group_lt hmem
      rw [segmentWith?, Span.shiftWithin?_eq (by omega) (by omega), Option.bind_eq_bind,
        Option.bind_some]
      apply groupWith?_eq hbody hlimit (by omega)
      · simp only [Span.shift]
        omega
      · simp only [Span.shift]
        omega
  have hscan : Scan.ofBytes? limit text = some (Scan.ofText text) :=
    Scan.ofBytes?_eq hlimit (by omega)
  simp only [nodesWith?, hscan, Scan.diagnostics?_eq h, Lists.mapM_of_forall hsegments,
    Option.bind_eq_bind, Option.bind_some]
  rw [nodesWith_eq]
  rfl

end Reader

/-- Reading a text passes its checks wherever the text stands, if it ends within the limit. -/
theorem parseAt?_eq {limit : Nat} (hlimit : limit < Span.offsetRange) {text : Text} {base : Nat}
    (h : base + width text ≤ limit) : parseAt? limit text base = some (parseAt text base) := by
  induction hlength : text.length using Nat.strong_induction_on generalizing text base with
  | _ n ih =>
    -- The induction is on the length of the text, because a body is shorter than what it stands in.
    rw [parseAt?, parseAt_eq]
    refine nodesWith?_eq ?_ hlimit (Nat.le_of_eq hlength) h
    intro inner start hinner hstart
    rw [if_pos (by omega)]
    exact ih inner.length hinner hstart rfl

/-- Reading passes its checks, for patterns and for the insides of selects, whether their braces
match or not: no text is cut inside of a character, and neither a depth nor a sum of offsets ever
passes the length of the text, so none of them passes the range of offsets. -/
theorem parse_passes_checks (text : Text) {limit : Nat} (h : width text ≤ limit)
    (hlimit : limit < Span.offsetRange) :
    parse? limit text = some (parse text) ∧
      parseSelection? limit text = some (parseSelection text) := by
  have hend : 0 + width text ≤ limit := by omega
  constructor
  · exact parseAt?_eq hlimit hend
  · have hselection := selectionWith?_eq (fun _ _ _ hinner => parseAt?_eq hlimit hinner) hlimit
      (Nat.le_refl text.length) hend
    rw [parseSelection?, hselection]
    rfl

/-- A stray brace behind a character of two bytes, a select, and a brace that stays open. -/
def strayPattern : Text := "ü\x7d\x7b\x7ba,select,ü\x7bx\x7dother\x7b\x7d\x7d\x7b"

theorem parse_passes_checks_stray :
    parse? 28 strayPattern = some (parse strayPattern) ∧
      parseSelection? 28 strayPattern = some (parseSelection strayPattern) :=
  parse_passes_checks strayPattern (by decide) (by decide)

end Pattern

end Phrasebook
