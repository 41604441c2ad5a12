import Phrasebook.Pattern.Parse
import Phrasebook.Proofs.Pattern.Chunks
import Phrasebook.Proofs.Pattern.Heading

/-!
# Reading patterns, level by level

A pattern is read by the same rule at each level, because the body of an arm is always shorter than
the text that holds it.
-/

namespace Phrasebook.Pattern

open Text

namespace Parsed

@[simp] theorem concat_nodes (parts : List Parsed) :
    (concat parts).nodes = parts.flatMap Parsed.nodes := by
  induction parts with
  | nil => rfl
  | cons first rest ih => simp [concat, append, ih]

@[simp] theorem concat_diagnostics (parts : List Parsed) :
    (concat parts).diagnostics = parts.flatMap Parsed.diagnostics := by
  induction parts with
  | nil => rfl
  | cons first rest ih => simp [concat, append, ih]

end Parsed

/-- A scan that nothing is said about has no stray or open braces. -/
theorem scan_of_clean {scan : Scan} {base : Nat} (h : scan.diagnostics base = []) :
    scan.strays = [] ∧ scan.unterminated = none := by
  simpa [Scan.diagnostics] using h

/-! ### Arms -/

/-- The body of an arm is a group. -/
theorem Arm.exists_group {pending : Option Label} {segments : List Segment} {arm : Arm}
    (h : arm ∈ (ofSegments pending segments).1) :
    ∃ span, .group arm.content span ∈ segments := by
  induction segments generalizing pending with
  | nil => simp [ofSegments] at h
  | cons segment segments ih =>
    cases segment with
    | literal text span =>
      obtain ⟨span, hspan⟩ := ih h
      exact ⟨span, List.mem_cons_of_mem _ hspan⟩
    | group content span =>
      rcases List.mem_cons.mp h with rfl | h
      · exact ⟨span, List.mem_cons_self⟩
      · obtain ⟨span, hspan⟩ := ih h
        exact ⟨span, List.mem_cons_of_mem _ hspan⟩

/-! ### Selects -/

/-- The text after the header of a select, or the whole text without one. -/
def afterHeader (text : Text) : Text := ((Header.read? text).getD ⟨[], text⟩).rest

/-- Where the text after the header of a select starts. -/
def afterHeaderAt (text : Text) (base : Nat) : Nat := base + (width text - width (afterHeader text))

/-- The arms after the header of a select, and the literal after the last one. -/
def armsOf (text : Text) : List Arm × Option Label :=
  Arm.ofSegments none (Scan.ofText (afterHeader text)).segments

/-- The arms of a select, with `body` to read their bodies. -/
def readArms (body : Text → Nat → Parsed) (text : Text) (base : Nat) : List ReadArm :=
  (armsOf text).1.map fun arm =>
    ⟨arm.label, arm.span.shift (afterHeaderAt text base),
      body arm.content (afterHeaderAt text base + arm.start)⟩

/-- What is said about a select without a fallback. -/
def missingOther (text : Text) (base : Nat) (arms : List ReadArm) : List Diagnostic :=
  if (ReadArm.fallback? arms).isSome then []
  else [⟨.missingOther ((Header.read? text).getD ⟨[], text⟩).name, ⟨base, base + width text⟩⟩]

theorem selectionWith_eq (body : Text → Nat → Parsed) (text : Text) (base : Nat) :
    selectionWith body text base =
      (⟨((Header.read? text).getD ⟨[], text⟩).name, ReadArm.cases (readArms body text base),
          (ReadArm.fallback? (readArms body text base)).getD (emptyBody ⟨base, base + width text⟩),
          ⟨base, base + width text⟩⟩,
        (Scan.ofText (afterHeader text)).diagnostics (afterHeaderAt text base) ++
          ReadArm.diagnostics [] (readArms body text base) ++
          Label.diagnostics (armsOf text).2 (afterHeaderAt text base) ++
          missingOther text base (readArms body text base)) :=
  rfl

theorem length_afterHeader_le (text : Text) : (afterHeader text).length ≤ text.length := by
  rw [afterHeader]
  cases hread : Header.read? text with
  | none => exact Nat.le_refl _
  | some header =>
    obtain ⟨heading, -, -, rfl⟩ := Heading.exists_of_read? hread
    simp

/-- The text after a header consists of characters of the text. -/
theorem mem_of_mem_afterHeader {text : Text} {c : Char} (h : c ∈ afterHeader text) : c ∈ text := by
  rw [afterHeader] at h
  cases hread : Header.read? text with
  | none => simpa [hread] using h
  | some header =>
    obtain ⟨heading, -, -, rfl⟩ := Heading.exists_of_read? hread
    rw [hread] at h
    exact List.mem_append_right _ h

/-- What is said about the body of an arm is said about the arms. -/
theorem ReadArm.diagnostics_subset {arm : ReadArm} {arms : List ReadArm} (h : arm ∈ arms)
    (earlier : List Text) : arm.body.diagnostics ⊆ ReadArm.diagnostics earlier arms := by
  induction arms generalizing earlier with
  | nil => simp at h
  | cons first arms ih =>
    intro d hd
    rw [ReadArm.diagnostics]
    rcases List.mem_cons.mp h with rfl | h
    · simp [hd]
    · exact List.mem_append_right _ (ih h _ hd)

/-! ### Levels -/

section Levels

variable {body body' : Text → Nat → Parsed} {text : Text}

theorem readArms_congr (h : ∀ inner start, inner.length < text.length →
    body inner start = body' inner start) (base : Nat) :
    readArms body text base = readArms body' text base := by
  refine List.map_congr_left fun arm harm => ?_
  obtain ⟨span, hspan⟩ := Arm.exists_group harm
  rw [h _ _ (Nat.lt_of_lt_of_le (length_group_lt hspan) (length_afterHeader_le text))]

theorem groupWith_congr (h : ∀ inner start, inner.length < text.length →
    body inner start = body' inner start) (span : Span) :
    groupWith body text span = groupWith body' text span := by
  simp only [groupWith, selectionWith_eq, readArms_congr h]

theorem nodesWith_congr (h : ∀ inner start, inner.length < text.length →
    body inner start = body' inner start) (base : Nat) :
    nodesWith body text base = nodesWith body' text base := by
  rw [nodesWith, nodesWith]
  congr 2
  refine List.map_congr_left fun segment hsegment => ?_
  cases segment with
  | literal literal span => rfl
  | group content span =>
    have hlength := length_group_lt hsegment
    exact groupWith_congr (fun inner start hinner => h inner start (hinner.trans hlength)) _

end Levels

/-- Every level is read by the same rule: the guard of the recursion never refuses a body. -/
theorem parseAt_eq (text : Text) (base : Nat) :
    parseAt text base = nodesWith parseAt text base := by
  rw [parseAt]
  exact nodesWith_congr (fun inner start hinner => if_pos hinner) base

end Phrasebook.Pattern
