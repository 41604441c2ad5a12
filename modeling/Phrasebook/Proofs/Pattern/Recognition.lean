import Phrasebook.Proofs.Lists
import Phrasebook.Proofs.Pattern.Grammar
import Mathlib.Data.List.Forall2

/-!
# Patterns that are read without a complaint

Reading says nothing about a text if and only if the grammar derives it, and then it finds the
nodes of the derivation.
-/

namespace Phrasebook.Pattern

open Text

/-- Nothing was said, and the nodes are those of a tree. -/
structure Parsed.Means (parsed : Parsed) (tree : List Node) : Prop where
  clean : parsed.diagnostics = []
  nodes : unplacedNodes parsed.nodes = tree

theorem unplacedNodes_append (a b : List Node) :
    unplacedNodes (a ++ b) = unplacedNodes a ++ unplacedNodes b := by
  induction a with
  | nil => rfl
  | cons node a ih => simp [unplacedNodes, ih]

/-! ### Groups around a word -/

theorem isPaddedWord_iff {text : Text} :
    isPaddedWord text = true ↔
      ∃ before name after, Blank before ∧ IsWord name ∧ Blank after ∧
        text = before ++ name ++ after := by
  constructor
  · intro h
    simp only [isPaddedWord, Bool.and_eq_true, Bool.not_eq_true', List.isEmpty_eq_false_iff,
      List.all_eq_true] at h
    obtain ⟨before, after, hbefore, hafter, htext⟩ := exists_padding text
    exact ⟨before, trim text, after, hbefore, ⟨h.1, h.2⟩, hafter, htext⟩
  · rintro ⟨before, name, after, hbefore, ⟨hne, hname⟩, hafter, rfl⟩
    rw [isPaddedWord, trim_padded hbefore hafter hname hne]
    simpa [hne] using hname

/-! ### Arms -/

/-- What is read from labelled groups in their places. -/
theorem ofSegments_place (offset : Nat) (strips : List Strip) (last : Text) :
    List.Forall₂
        (fun (arm : Arm) strip => arm.label = trim strip.label ∧ arm.content = strip.content)
        (Arm.ofSegments none (place offset (stripChunks strips last))).1 strips ∧
      ((Arm.ofSegments none (place offset (stripChunks strips last))).2.map Label.text).getD [] =
        last := by
  induction strips generalizing offset with
  | nil =>
    by_cases hlast : last = []
    · simp [stripChunks, labelChunks, hlast, place, Arm.ofSegments]
    · simp [stripChunks, labelChunks, hlast, place, Arm.ofSegments]
  | cons strip strips ih =>
    by_cases hlabel : strip.label = []
    · simp [stripChunks, labelChunks, hlabel, place, Arm.ofSegments, ih]
    · simp [stripChunks, labelChunks, hlabel, place, Arm.ofSegments, ih]

/-- Nothing is said about arms if and only if nothing is said about a body and no label is
repeated. -/
theorem ReadArm.diagnostics_eq_nil_iff {arms : List ReadArm} {earlier : List Text} :
    ReadArm.diagnostics earlier arms = [] ↔
      (∀ arm ∈ arms, arm.body.diagnostics = []) ∧ (arms.map ReadArm.label).Nodup ∧
        ∀ label ∈ arms.map ReadArm.label, label ∉ earlier := by
  induction arms generalizing earlier with
  | nil => simp [ReadArm.diagnostics]
  | cons arm arms ih =>
    simp only [ReadArm.diagnostics, List.append_eq_nil_iff, ih]
    grind

theorem ReadArm.isSome_fallback? {arms : List ReadArm} :
    (ReadArm.fallback? arms).isSome ↔ other ∈ arms.map ReadArm.label := by
  simp only [ReadArm.fallback?, Option.isSome_map, List.mem_map]
  rw [List.getLast?_isSome]
  simp

/-- An arm that was read is an arm of the grammar. -/
def ReadArm.Matches (read : ReadArm) (arm : Branch) : Prop :=
  read.label = trim arm.label ∧ read.body.Means (pieceNodes arm.body)

section Matches

variable {reads : List ReadArm} {arms : List Branch}

theorem label_of_matches (h : List.Forall₂ ReadArm.Matches reads arms) :
    reads.map ReadArm.label = labels arms :=
  Lists.map_eq_map_of_forall₂ h fun _ _ harm => harm.1

theorem clean_of_matches (h : List.Forall₂ ReadArm.Matches reads arms) :
    ∀ read ∈ reads, read.body.diagnostics = [] := by
  induction h with
  | nil => simp
  | cons harm _ ih => simpa [harm.2.clean] using ih

theorem cases_of_matches (h : List.Forall₂ ReadArm.Matches reads arms) :
    unplacedCases (ReadArm.cases reads) = armCases arms := by
  induction h with
  | nil => rfl
  | @cons read arm reads arms harm _ ih =>
    obtain ⟨label, body⟩ := arm
    obtain ⟨hlabel, hbody⟩ := harm
    rw [armCases]
    split_ifs with hother
    · rw [← ih, ReadArm.cases, ReadArm.cases, List.filter_cons_of_neg (by simp [hlabel, hother])]
    · rw [← ih, ReadArm.cases, ReadArm.cases, List.filter_cons_of_pos (by simp [hlabel, hother]),
        List.map_cons, unplacedCases, hbody.nodes, hlabel]

theorem fallback_of_matches (h : List.Forall₂ ReadArm.Matches reads arms)
    (hcount : (labels arms).count other = 1) :
    ∃ nodes, ReadArm.fallback? reads = some nodes ∧ unplacedNodes nodes = armFallback arms := by
  induction h with
  | nil => simp [labels] at hcount
  | @cons read arm reads arms harm hrest ih =>
    obtain ⟨label, body⟩ := arm
    obtain ⟨hlabel, hbody⟩ := harm
    rw [armFallback]
    split_ifs with hother
    · have hnone : (reads.filter fun read => read.label = other) = [] := by
        rw [labels, List.map_cons, ← labels, hother, List.count_cons_self] at hcount
        have hzero : (labels arms).count other = 0 := by omega
        rw [← label_of_matches hrest, List.count_eq_zero] at hzero
        simpa using hzero
      refine ⟨read.body.nodes, ?_, hbody.nodes⟩
      rw [ReadArm.fallback?, List.filter_cons_of_pos (by simp [hlabel, hother]), hnone]
      rfl
    · rw [labels, List.map_cons, ← labels, List.count_cons_of_ne hother] at hcount
      obtain ⟨nodes, hnodes, hbodies⟩ := ih hcount
      refine ⟨nodes, ?_, hbodies⟩
      rw [ReadArm.fallback?, List.filter_cons_of_neg (by simp [hlabel, hother])]
      exact hnodes

end Matches

/-! ### Selects -/

/-- What follows a heading is left over by its header. -/
theorem afterHeader_heading {heading : Heading} (valid : heading.Valid) (rest : Text) :
    afterHeader (heading.spell ++ rest) = rest := by
  rw [afterHeader, valid.read?_append]
  rfl

section Select

variable {heading : Heading} {strips : List Strip} {last : Text}

/-- The arms of a select are its labelled groups. -/
theorem readArms_strips (valid : heading.Valid) (h : Chunked (stripChunks strips last))
    (base : Nat) :
    List.Forall₂ (fun read strip => read.label = trim strip.label ∧
        ∃ start, read.body = parseAt strip.content start)
      (readArms parseAt (heading.spell ++ spell (stripChunks strips last)) base) strips := by
  rw [readArms, armsOf, afterHeader_heading valid, ofText_spell h, List.forall₂_map_left_iff]
  refine (ofSegments_place 0 strips last).1.imp ?_
  rintro arm strip ⟨hlabel, hcontent⟩
  exact ⟨hlabel, _, by rw [hcontent]⟩

/-- Nothing is said about the text after the arms if and only if it is blank. -/
theorem label_diagnostics_eq_nil_iff (valid : heading.Valid)
    (h : Chunked (stripChunks strips last)) (base : Nat) :
    Label.diagnostics (armsOf (heading.spell ++ spell (stripChunks strips last))).2 base = [] ↔
      Blank last := by
  rw [armsOf, afterHeader_heading valid, ofText_spell h]
  have hlast := (ofSegments_place 0 strips last).2
  cases hlabel : (Arm.ofSegments none (place 0 (stripChunks strips last))).2 with
  | none =>
    obtain rfl : [] = last := by simpa [hlabel] using hlast
    simp [Label.diagnostics, Blank]
  | some label =>
    obtain rfl : label.text = last := by simpa [hlabel] using hlast
    have htrim : trim label.text = [] ↔ Blank label.text :=
      ⟨blank_of_trim_eq_nil, Blank.trim_eq_nil⟩
    rw [← htrim]
    simp [Label.diagnostics]

/-- Nothing is said about a select if and only if nothing is said about a body, the labels differ,
and only blanks follow the arms. -/
theorem selectionWith_clean_iff (valid : heading.Valid) (h : Chunked (stripChunks strips last))
    (base : Nat) :
    (selectionWith parseAt (heading.spell ++ spell (stripChunks strips last)) base).2 = [] ↔
      (∀ read ∈ readArms parseAt (heading.spell ++ spell (stripChunks strips last)) base,
          read.body.diagnostics = []) ∧
        LabelsDiffer (strips.map fun strip => trim strip.label) ∧ Blank last := by
  have hreads := readArms_strips valid h base
  have hlabels : (readArms parseAt (heading.spell ++ spell (stripChunks strips last)) base).map
      ReadArm.label = strips.map fun strip => trim strip.label :=
    Lists.map_eq_map_of_forall₂ hreads fun _ _ hread => hread.1
  have hscan : (Scan.ofText (afterHeader
      (heading.spell ++ spell (stripChunks strips last)))).diagnostics
        (afterHeaderAt (heading.spell ++ spell (stripChunks strips last)) base) = [] := by
    rw [afterHeader_heading valid, ofText_spell h]
    rfl
  simp only [selectionWith_eq, hscan, List.nil_append, List.append_eq_nil_iff,
    ReadArm.diagnostics_eq_nil_iff, label_diagnostics_eq_nil_iff valid h, missingOther,
    ReadArm.isSome_fallback?, hlabels, labelsDiffer_iff]
  grind

/-- A group that starts with a heading is read as a select. -/
theorem groupWith_heading (valid : heading.Valid) (rest : Text) (span : Span) :
    groupWith parseAt (heading.spell ++ rest) span =
      { nodes := [(selectionWith parseAt (heading.spell ++ rest) (span.start + 1)).1.nodeAt span]
        diagnostics := (selectionWith parseAt (heading.spell ++ rest) (span.start + 1)).2 } := by
  have hword : ¬ isPaddedWord (heading.spell ++ rest) = true := by
    rw [isPaddedWord_iff]
    rintro ⟨before, name, after, hbefore, hname, hafter, htext⟩
    exact padded_ne_heading hbefore hname hafter htext.symm
  have hheader : (Header.read? (heading.spell ++ rest)).isSome = true := by
    rw [valid.read?_append]
    rfl
  rw [groupWith, if_neg hword, if_pos hheader]

end Select

/-! ### Derived texts are read as their trees -/

/-- The parse of a segment. -/
def segmentWith (body : Text → Nat → Parsed) (base : Nat) : Segment → Parsed
  | .literal literal span => { nodes := [.text literal (span.shift base)] }
  | .group content span => groupWith body content (span.shift base)

theorem nodesWith_eq (body : Text → Nat → Parsed) (text : Text) (base : Nat) :
    nodesWith body text base =
      Parsed.append { diagnostics := (Scan.ofText text).diagnostics base }
        (Parsed.concat ((Scan.ofText text).segments.map (segmentWith body base))) := by
  rw [nodesWith]
  congr 3

theorem means_select {heading : Heading} {arms : List Branch} {blanks : Text}
    (h : (Piece.select heading arms blanks).WellFormed)
    (hbodies : ∀ arm ∈ arms, ∀ base,
      (parseAt (spellPieces arm.body) base).Means (pieceNodes arm.body)) (span : Span) :
    (groupWith parseAt (heading.spell ++ (spellArms arms ++ blanks)) span).Means
      [(Piece.select heading arms blanks).node] := by
  obtain ⟨hheading, hlabels, harms, hblanks⟩ := h
  have hchunked := chunked_arms harms hblanks
  rw [← spell_stripChunks, groupWith_heading hheading]
  generalize span.start + 1 = base
  -- The arms that are read are those of the grammar, since their bodies are read as their trees.
  have hmatches : List.Forall₂ ReadArm.Matches
      (readArms parseAt (heading.spell ++ spell (stripChunks (arms.map Branch.strip) blanks)) base)
      arms := by
    have hreads := readArms_strips hheading hchunked base
    rw [List.forall₂_map_right_iff] at hreads
    refine (List.Forall₂.imp ?_ ((List.forall₂_and_left _ _).mpr ⟨hbodies, hreads.flip⟩)).flip
    rintro arm read ⟨hbody, hlabel, start, hread⟩
    exact ⟨hlabel, hread ▸ hbody start⟩
  constructor
  · refine (selectionWith_clean_iff hheading hchunked base).mpr ⟨?_, ?_, hblanks⟩
    · exact clean_of_matches hmatches
    · simpa [labels, Branch.strip, Function.comp_def] using hlabels
  · obtain ⟨nodes, hnodes, hfallback⟩ := fallback_of_matches hmatches hlabels.1
    simp only [selectionWith_eq, Selection.nodeAt, unplacedNodes, Node.unplaced,
      cases_of_matches hmatches, hnodes, Option.getD_some, hfallback, hheading.read?_append]
    rfl

/-- A pattern is read as its tree if its segments are. -/
theorem means_of_segments {pieces : List Piece} (h : IsPattern pieces) {base : Nat}
    (hsegments : (Parsed.concat ((place 0 (pieces.map Piece.chunk)).map
      (segmentWith parseAt base))).Means (pieceNodes pieces)) :
    (parseAt (spellPieces pieces) base).Means (pieceNodes pieces) := by
  have hscan := ofText_spell h.chunked
  rw [spell_map_chunk] at hscan
  rw [parseAt_eq, nodesWith_eq, hscan]
  exact hsegments

mutual
theorem means_segment {piece : Piece} (h : piece.WellFormed) {segment : Segment}
    (hsegment : segment.chunk = piece.chunk) (base : Nat) :
    (segmentWith parseAt base segment).Means [piece.node] := by
  match piece, segment, h, hsegment with
  | .text _, .literal _ _, _, hsegment =>
    obtain rfl := Chunk.literal.inj hsegment
    exact ⟨rfl, rfl⟩
  | .placeholder before name after, .group _ span, h, hsegment =>
    obtain rfl := Chunk.group.inj hsegment
    obtain ⟨hbefore, hname, hafter⟩ := h
    have hword := isPaddedWord_iff.mpr ⟨before, name, after, hbefore, hname, hafter, rfl⟩
    rw [segmentWith, groupWith, if_pos hword, trim_padded hbefore hafter hname.2 hname.1]
    exact ⟨rfl, rfl⟩
  | .select heading arms blanks, .group _ span, h, hsegment =>
    obtain rfl := Chunk.group.inj hsegment
    exact means_select h (means_arms h.2.2.1) _

theorem means_segments {pieces : List Piece} (h : WellFormedPieces pieces)
    {segments : List Segment} (hsegments : segments.map Segment.chunk = pieces.map Piece.chunk)
    (base : Nat) :
    (Parsed.concat (segments.map (segmentWith parseAt base))).Means (pieceNodes pieces) := by
  match pieces, segments, h, hsegments with
  | [], [], _, _ => exact ⟨rfl, rfl⟩
  | _ :: _, _ :: _, h, hsegments =>
    rw [List.map_cons, List.map_cons, List.cons.injEq] at hsegments
    have hfirst := means_segment h.1 hsegments.1 base
    have hrest := means_segments h.2 hsegments.2 base
    exact ⟨by simpa [hfirst.clean] using hrest.clean, by
      rw [List.map_cons, Parsed.concat, Parsed.append, unplacedNodes_append, hfirst.nodes,
        hrest.nodes]
      rfl⟩

theorem means_arms {arms : List Branch} (h : WellFormedArms arms) :
    ∀ arm ∈ arms, ∀ base, (parseAt (spellPieces arm.body) base).Means (pieceNodes arm.body) := by
  match arms, h with
  | [], _ => simp
  | ⟨label, body⟩ :: _, h =>
    obtain ⟨⟨-, hbody⟩, hrest⟩ := h
    intro arm harm base
    rcases List.mem_cons.mp harm with rfl | harm
    · exact means_of_segments hbody (means_segments hbody.2 (map_chunk_place 0 _) base)
    · exact means_arms hrest arm harm base
end

/-- A text with a derivation is read as the tree of the derivation. -/
theorem means_parseAt {pieces : List Piece} (h : IsPattern pieces) (base : Nat) :
    (parseAt (spellPieces pieces) base).Means (pieceNodes pieces) :=
  means_of_segments h (means_segments h.2 (map_chunk_place 0 _) base)

/-! ### Texts that are read without a complaint have derivations -/

/-- The groups of a text are shorter than the text. -/
theorem length_content_lt {strips : List Strip} {last : Text} {strip : Strip} (h : strip ∈ strips) :
    strip.content.length < (spell (stripChunks strips last)).length := by
  induction strips with
  | nil => simp at h
  | cons first strips ih =>
    rw [stripChunks, spell_labelChunks, spell_cons, List.length_append, List.length_append]
    rcases List.mem_cons.mp h with rfl | h
    · simp only [Chunk.spell, List.length_append, List.length_cons]
      omega
    · have hshort := ih h
      omega

section Groups

variable {content : Text} {span : Span}
  (ih : ∀ (inner : Text) (base : Nat), inner.length < content.length →
    (parseAt inner base).diagnostics = [] → ∃ pieces, IsPattern pieces ∧ spellPieces pieces = inner)

include ih

/-- The derivations of the bodies make up a derivation of a select. -/
theorem exists_select (hheader : (Header.read? content).isSome = true)
    (h : (groupWith parseAt content span).diagnostics = []) :
    ∃ piece : Piece, piece.WellFormed ∧ piece.chunk = .group content := by
  obtain ⟨header, hread⟩ := Option.isSome_iff_exists.mp hheader
  obtain ⟨heading, valid, -, rfl⟩ := Heading.exists_of_read? hread
  generalize header.rest = rest at *
  rw [groupWith_heading valid] at h
  have hscan : (Scan.ofText rest).strays = [] ∧ (Scan.ofText rest).unterminated = none := by
    rw [← afterHeader_heading valid rest]
    rw [selectionWith_eq] at h
    simp only [List.append_eq_nil_iff] at h
    exact scan_of_clean h.1.1.1
  obtain ⟨chunks, hchunks, rfl⟩ := exists_chunks hscan.1 hscan.2
  obtain ⟨strips, last, hstrips, -, rfl⟩ := exists_stripChunks hchunks
  obtain ⟨hbodies, hlabels, hblanks⟩ := (selectionWith_clean_iff valid hchunks _).mp h
  have hreads := readArms_strips valid hchunks (span.start + 1)
  have harms : ∀ strip ∈ strips, ∃ arm : Branch,
      (BraceFree arm.label ∧ IsPattern arm.body) ∧ arm.strip = strip := by
    intro strip hmem
    obtain ⟨read, hread, -, start, hbody⟩ := Lists.exists_of_forall₂ hreads hmem
    have hlength := @length_content_lt strips last strip hmem
    obtain ⟨pieces, hpieces, hspell⟩ := ih strip.content start
      (by rw [List.length_append]; omega) (by rw [← hbody]; exact hbodies read hread)
    exact ⟨⟨strip.label, pieces⟩, ⟨(hstrips strip hmem).1, hpieces⟩, by rw [Branch.strip, hspell]⟩
  obtain ⟨arms, hwellFormed, rfl⟩ := Lists.exists_map_eq harms
  refine ⟨.select heading arms last, ⟨valid, ?_, wellFormedArms_iff.mpr hwellFormed, hblanks⟩, ?_⟩
  · simpa [labels, Branch.strip, Function.comp_def] using hlabels
  · rw [Piece.chunk, spell_stripChunks]

/-- A group that is read without a complaint is a piece. -/
theorem exists_group (h : (groupWith parseAt content span).diagnostics = []) :
    ∃ piece : Piece, piece.WellFormed ∧ piece.chunk = .group content := by
  by_cases hword : isPaddedWord content = true
  · obtain ⟨before, name, after, hbefore, hname, hafter, rfl⟩ := isPaddedWord_iff.mp hword
    exact ⟨.placeholder before name after, ⟨hbefore, hname, hafter⟩, rfl⟩
  by_cases hheader : (Header.read? content).isSome = true
  · exact exists_select ih hheader h
  · rw [groupWith, if_neg hword, if_neg hheader] at h
    simp at h

end Groups

/-- A text that is read without a complaint has a derivation. -/
theorem exists_pieces {text : Text} {base : Nat} (h : (parseAt text base).diagnostics = []) :
    ∃ pieces, IsPattern pieces ∧ spellPieces pieces = text := by
  -- Chunks become pieces one by one; the contents of groups are shorter than the text.
  induction hlength : text.length using Nat.strong_induction_on generalizing text base with
  | _ n ih =>
    rw [parseAt_eq, nodesWith_eq, Parsed.append] at h
    obtain ⟨hscan, hsegments⟩ := List.append_eq_nil_iff.mp h
    obtain ⟨hstrays, hclosed⟩ := scan_of_clean hscan
    obtain ⟨chunks, hchunks, rfl⟩ := exists_chunks hstrays hclosed
    simp only [Parsed.concat_diagnostics, List.flatMap_eq_nil_iff, List.forall_mem_map] at hsegments
    have hpieces : ∀ chunk ∈ chunks, ∃ piece : Piece, piece.WellFormed ∧ piece.chunk = chunk := by
      intro chunk hchunk
      cases chunk with
      | literal text => exact ⟨.text text, hchunks.valid _ hchunk, rfl⟩
      | group content =>
        rw [← map_chunk_place 0 chunks] at hchunk
        obtain ⟨segment, hsegment, hgroup⟩ := List.mem_map.mp hchunk
        cases segment with
        | literal text span => cases hgroup
        | group content' span =>
          obtain rfl := Chunk.group.inj hgroup
          have hmem : .group content' span ∈ (Scan.ofText (spell chunks)).segments := by
            rw [ofText_spell hchunks]
            exact hsegment
          have hshort : content'.length < n := hlength ▸ length_group_lt hmem
          exact exists_group (fun inner start hinner hclean =>
            ih inner.length (hinner.trans hshort) hclean rfl) (hsegments _ hmem)
    obtain ⟨pieces, hwellFormed, rfl⟩ := Lists.exists_map_eq hpieces
    refine ⟨pieces, ⟨isChain_map_chunk.mp hchunks.apart, wellFormedPieces_iff.mpr hwellFormed⟩, ?_⟩
    rw [spell_map_chunk]

/-- Reading says nothing about a text if and only if the grammar derives it; a derivation is
unique, and its tree is what is read. -/
theorem parse_clean_iff_derivation (pattern : Text) :
    ((parse pattern).diagnostics = [] ↔ Nonempty (Derivation pattern)) ∧
      (∀ d d' : Derivation pattern, d = d') ∧
      ∀ d : Derivation pattern, unplacedNodes (parse pattern).nodes = d.tree := by
  have hmeans (d : Derivation pattern) : (parse pattern).Means d.tree := by
    have hpieces := means_parseAt d.isPattern 0
    rwa [d.spelled] at hpieces
  refine ⟨⟨fun h => ?_, fun ⟨d⟩ => (hmeans d).clean⟩, Derivation.unique, fun d => (hmeans d).nodes⟩
  obtain ⟨pieces, hpieces, hspell⟩ := exists_pieces h
  exact ⟨⟨pieces, hpieces, hspell⟩⟩

end Phrasebook.Pattern
