import Phrasebook.Proofs.Pattern.Places

/-!
# Complaints about braces

The inside of a group has matching braces, because a group ends at the brace that matches its first
one. So only the outermost level of a pattern can have braces that do not match: reading the inside
of a group never complains about one, at any depth.
-/

namespace Phrasebook.Pattern

open Text

/-- Whether a problem is a brace without a partner. -/
def Problem.isUnmatched : Problem → Bool
  | unterminatedBrace => true
  | strayClosingBrace => true
  | unrecognizedGroup _ => false
  | duplicateCase _ => false
  | duplicateDefault => false
  | missingOther _ => false
  | ignoredSelectText _ => false

theorem Balanced.scan_diagnostics {text : Text} (h : Balanced text) (base : Nat) :
    (Scan.ofText text).diagnostics base = [] := by
  obtain ⟨hstrays, hclosed⟩ := h.scan_clean
  simp [Scan.diagnostics, hstrays, hclosed]

theorem Balanced.afterHeader {content : Text} (h : Balanced content) :
    Balanced (afterHeader content) := by
  cases hread : Header.read? content with
  | none => rwa [Pattern.afterHeader, hread]
  | some header =>
    obtain ⟨heading, valid, -, rfl⟩ := Heading.exists_of_read? hread
    rw [afterHeader_heading valid]
    exact h.of_append valid.braceFree

/-- What is said about arms is said about a body, or about a label that occurred before. -/
theorem ReadArm.of_mem_diagnostics {arms : List ReadArm} {earlier : List Text} {d : Diagnostic}
    (h : d ∈ ReadArm.diagnostics earlier arms) :
    (∃ arm ∈ arms, d ∈ arm.body.diagnostics) ∨ ∃ arm ∈ arms, d =
      ⟨if arm.label = other then .duplicateDefault else .duplicateCase arm.label, arm.span⟩ := by
  induction arms generalizing earlier with
  | nil => simp [ReadArm.diagnostics] at h
  | cons first arms ih =>
    rw [ReadArm.diagnostics, List.mem_append, List.mem_append] at h
    rcases h with (hbody | hlabel) | hrest
    · exact .inl ⟨first, List.mem_cons_self, hbody⟩
    · by_cases hrepeated : first.label ∈ earlier
      · rw [if_pos hrepeated] at hlabel
        exact .inr ⟨first, List.mem_cons_self, List.mem_singleton.mp hlabel⟩
      · simp [hrepeated] at hlabel
    · rcases ih hrest with ⟨arm, harm, hd⟩ | ⟨arm, harm, hd⟩
      · exact .inl ⟨arm, List.mem_cons_of_mem _ harm, hd⟩
      · exact .inr ⟨arm, List.mem_cons_of_mem _ harm, hd⟩

/-- What is said about the text after the last arm is that it is ignored. -/
theorem Label.of_mem_diagnostics {last : Option Label} {base : Nat} {d : Diagnostic}
    (h : d ∈ Label.diagnostics last base) : ∃ text, d.problem = .ignoredSelectText text := by
  cases last with
  | none => simp [Label.diagnostics] at h
  | some label =>
    rw [Label.diagnostics] at h
    split_ifs at h with hblank
    · simp at h
    · obtain rfl := List.mem_singleton.mp h
      exact ⟨_, rfl⟩

/-! ### Levels -/

section Groups

variable {content : Text} (hcontent : Balanced content)
  (ih : ∀ (inner : Text) (base : Nat), inner.length < content.length → Balanced inner →
    ∀ d ∈ (parseAt inner base).diagnostics, d.problem.isUnmatched = false)

include hcontent ih

/-- Reading a select does not complain about braces if reading its bodies does not. -/
theorem not_isUnmatched_select (hheader : (Header.read? content).isSome = true) (base : Nat) :
    ∀ d ∈ (selectionWith parseAt content base).2, d.problem.isUnmatched = false := by
  intro d hd
  rw [selectionWith_eq, hcontent.afterHeader.scan_diagnostics, List.nil_append] at hd
  simp only [List.mem_append] at hd
  rcases hd with (harms | hlast) | hmissing
  · rcases ReadArm.of_mem_diagnostics harms with ⟨arm, harm, hbody⟩ | ⟨arm, -, rfl⟩
    · obtain ⟨heading, strips, last, hparts⟩ := exists_selectParts hcontent hheader
      rw [hparts.readArms_eq] at harm
      obtain ⟨strip, hstrip, _, _, -, rfl⟩ := exists_of_mem_readStrips harm last
      have hlength := @length_content_lt strips last strip hstrip
      refine ih strip.content _ ?_ (hparts.arms strip hstrip).2 d hbody
      rw [hparts.spelled, List.length_append]
      omega
    · split_ifs <;> rfl
  · obtain ⟨text, hproblem⟩ := Label.of_mem_diagnostics hlast
    rw [hproblem]
    rfl
  · rw [missingOther] at hmissing
    split_ifs at hmissing
    · simp at hmissing
    · obtain rfl := List.mem_singleton.mp hmissing
      rfl

theorem not_isUnmatched_group (span : Span) :
    ∀ d ∈ (groupWith parseAt content span).diagnostics, d.problem.isUnmatched = false := by
  intro d hd
  rw [groupWith] at hd
  split_ifs at hd with hword hheader
  · simp at hd
  · exact not_isUnmatched_select hcontent ih hheader _ d hd
  · obtain rfl := List.mem_singleton.mp hd
    rfl

end Groups

/-- Reading chunks does not complain about braces if reading shorter balanced texts does not. -/
theorem not_isUnmatched_readChunks {chunks : List Chunk}
    (hsettled : ∀ chunk ∈ chunks, chunk.Settled)
    (ih : ∀ (inner : Text) (base : Nat), inner.length < (spell chunks).length → Balanced inner →
      ∀ d ∈ (parseAt inner base).diagnostics, d.problem.isUnmatched = false) (offset : Nat) :
    ∀ d ∈ (readChunks offset chunks).diagnostics, d.problem.isUnmatched = false := by
  induction chunks generalizing offset with
  | nil => simp [readChunks]
  | cons chunk chunks ihchunks =>
    rw [List.forall_mem_cons] at hsettled
    rw [spell_cons, List.length_append] at ih
    intro d hd
    rcases List.mem_append.mp hd with hd | hd
    · cases chunk with
      | literal text => simp [Chunk.read] at hd
      | group content =>
        refine not_isUnmatched_group hsettled.1 (fun inner base hinner => ih inner base ?_) _ d hd
        simp only [Chunk.spell, List.length_append, List.length_cons]
        omega
    · exact ihchunks hsettled.2 (fun inner base hinner => ih inner base (by omega)) _ d hd

/-- A text with matching braces is read without a complaint about braces, at any depth. -/
theorem Balanced.not_isUnmatched {text : Text} (h : Balanced text) (base : Nat) :
    ∀ d ∈ (parseAt text base).diagnostics, d.problem.isUnmatched = false := by
  induction hlength : text.length using Nat.strong_induction_on generalizing text base with
  | _ n ih =>
    obtain ⟨chunks, tail, hfinds⟩ := exists_finds text
    rw [parseAt_eq_readChunks hfinds, h.scan_diagnostics]
    have hspelled := congrArg List.length hfinds.spelled
    rw [List.length_append] at hspelled
    refine not_isUnmatched_readChunks hfinds.settled (fun inner start hinner hbalanced => ?_) base
    exact ih inner.length (by omega) hbalanced start rfl

/-- What is said about a pattern starts with what its scan says about braces, and nothing after that
is about braces. -/
theorem exists_diagnostics_parse (pattern : Text) :
    ∃ rest, (parse pattern).diagnostics = (Scan.ofText pattern).diagnostics 0 ++ rest ∧
      ∀ d ∈ rest, d.problem.isUnmatched = false := by
  obtain ⟨chunks, tail, hfinds⟩ := exists_finds pattern
  refine ⟨(readChunks 0 chunks).diagnostics, ?_, ?_⟩
  · rw [parse, parseAt_eq_readChunks hfinds, Parsed.append]
  · exact not_isUnmatched_readChunks hfinds.settled
      (fun inner base _ hbalanced => hbalanced.not_isUnmatched base) 0

/-- The complaints about the braces of a pattern are those of its scan, and no others. -/
theorem filter_isUnmatched_parse (pattern : Text) :
    (parse pattern).diagnostics.filter (fun d => d.problem.isUnmatched) =
      (Scan.ofText pattern).diagnostics 0 := by
  obtain ⟨rest, hsaid, hrest⟩ := exists_diagnostics_parse pattern
  have hscan : ∀ d ∈ (Scan.ofText pattern).diagnostics 0, d.problem.isUnmatched = true := by
    simp only [Scan.diagnostics, List.mem_append, List.mem_map]
    rintro d (⟨_, -, rfl⟩ | ⟨_, -, rfl⟩)
    · rfl
    · rfl
  rw [hsaid, List.filter_append, List.filter_eq_self.mpr hscan, List.filter_eq_nil_iff.mpr,
    List.append_nil]
  intro d hd
  simp [hrest d hd]

end Phrasebook.Pattern
