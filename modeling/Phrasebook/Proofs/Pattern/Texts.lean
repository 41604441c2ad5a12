import Phrasebook.Proofs.Pattern.Parsing

/-!
# Texts and labels of a pattern that was read

All texts and labels in a pattern that was read, at any depth, consist of characters of the
pattern. If nothing was worth a warning, no brace has become part of a text or a label.
-/

namespace Phrasebook.Pattern

open Text

mutual
/-- The texts and labels in a node. -/
def nodeTexts : Node → List Text
  | .text value _ => [value]
  | .placeholder _ _ => []
  | .select _ cases fallback _ => caseTexts cases ++ texts fallback

/-- The texts and labels in nodes. -/
def texts : List Node → List Text
  | [] => []
  | node :: rest => nodeTexts node ++ texts rest

/-- The texts and labels in cases. -/
def caseTexts : List Case → List Text
  | [] => []
  | ⟨label, body, _⟩ :: rest => label :: texts body ++ caseTexts rest
end

theorem texts_append (a b : List Node) : texts (a ++ b) = texts a ++ texts b := by
  induction a with
  | nil => rfl
  | cons node a ih => simp [texts, ih]

theorem mem_texts_flatMap {α : Type} {l : List α} {f : α → List Node} {t : Text} :
    t ∈ texts (l.flatMap f) ↔ ∃ a ∈ l, t ∈ texts (f a) := by
  induction l with
  | nil => simp [texts]
  | cons a l ih => simp [texts_append, ih]

theorem mem_caseTexts {cases : List Case} {t : Text} :
    t ∈ caseTexts cases ↔ ∃ c ∈ cases, t = c.label ∨ t ∈ texts c.body := by
  induction cases with
  | nil => simp [caseTexts]
  | cons c cases ih =>
    obtain ⟨label, body, span⟩ := c
    simp [caseTexts, ih, or_assoc]

/-- Nothing worse than a hint was said. -/
def WarningFree (diagnostics : List Diagnostic) : Prop :=
  ∀ d ∈ diagnostics, d.severity ≠ .warning

instance (diagnostics : List Diagnostic) : Decidable (WarningFree diagnostics) :=
  inferInstanceAs (Decidable (∀ d ∈ diagnostics, d.severity ≠ .warning))

theorem WarningFree.mono {a b : List Diagnostic} (h : WarningFree b) (hsub : a ⊆ b) :
    WarningFree a :=
  fun d hd => h d (hsub hd)

/-! ### Literals -/

/-- A scan without warnings has no complaints. -/
theorem scan_of_warningFree {scan : Scan} {base : Nat} (h : WarningFree (scan.diagnostics base)) :
    scan.strays = [] ∧ scan.unterminated = none := by
  have hwarning : ∀ d ∈ scan.diagnostics base, d.severity = .warning := by
    intro d hd
    simp only [Scan.diagnostics, List.mem_append, List.mem_map] at hd
    rcases hd with ⟨offset, -, rfl⟩ | ⟨span, -, rfl⟩
    · rfl
    · rfl
  apply scan_of_clean
  exact List.eq_nil_iff_forall_not_mem.mpr fun d hd => h d hd (hwarning d hd)

/-- The chunk of a segment is among the chunks that were placed. -/
theorem chunk_mem_of_mem_place {offset : Nat} {chunks : List Chunk} {segment : Segment}
    (h : segment ∈ place offset chunks) : segment.chunk ∈ chunks := by
  rw [← map_chunk_place offset chunks]
  exact List.mem_map_of_mem h

/-- A scan without warnings finds no literal with a brace. -/
theorem braceFree_of_mem_segments {text literal : Text} {base : Nat} {span : Span}
    (hfree : WarningFree ((Scan.ofText text).diagnostics base))
    (h : .literal literal span ∈ (Scan.ofText text).segments) : BraceFree literal := by
  obtain ⟨hstrays, hclosed⟩ := scan_of_warningFree hfree
  obtain ⟨chunks, hchunks, rfl⟩ := exists_chunks hstrays hclosed
  rw [ofText_spell hchunks] at h
  exact (hchunks.valid _ (chunk_mem_of_mem_place h)).2

theorem mem_of_mem_trim {text : Text} {c : Char} (h : c ∈ trim text) : c ∈ text := by
  obtain ⟨before, after, -, -, htext⟩ := exists_padding text
  rw [htext]
  simp [h]

/-- The label of an arm is a literal without the blanks around it, or empty. -/
theorem Arm.exists_literal {pending : Option Label} {segments : List Segment} {arm : Arm}
    (h : arm ∈ (ofSegments pending segments).1) :
    arm.label = [] ∨ (∃ label ∈ pending, arm.label = trim label.text) ∨
      ∃ literal span, .literal literal span ∈ segments ∧ arm.label = trim literal := by
  induction segments generalizing pending with
  | nil => simp [ofSegments] at h
  | cons segment segments ih =>
    cases segment with
    | literal text span =>
      rcases ih h with hnil | ⟨label, hlabel, htrim⟩ | ⟨literal, at_, hmem, htrim⟩
      · exact .inl hnil
      · obtain rfl := Option.mem_some.mp hlabel
        exact .inr (.inr ⟨text, span, List.mem_cons_self, htrim⟩)
      · exact .inr (.inr ⟨literal, at_, List.mem_cons_of_mem _ hmem, htrim⟩)
    | group content span =>
      rcases List.mem_cons.mp h with rfl | h
      · cases pending with
        | none => exact .inl rfl
        | some label => exact .inr (.inl ⟨label, rfl, rfl⟩)
      · rcases ih h with hnil | ⟨label, hlabel, -⟩ | ⟨literal, at_, hmem, htrim⟩
        · exact .inl hnil
        · simp at hlabel
        · exact .inr (.inr ⟨literal, at_, List.mem_cons_of_mem _ hmem, htrim⟩)

/-! ### Levels -/

/-- Texts and labels consist of characters of `text`, and have no braces if there is no warning. -/
def TextsFrom (text : Text) (parsed : Parsed) : Prop :=
  ∀ t ∈ texts parsed.nodes,
    (∀ c ∈ t, c ∈ text) ∧ (WarningFree parsed.diagnostics → BraceFree t)

section Levels

variable {body : Text → Nat → Parsed}

/-- The label of an arm and the texts in its body come from the text after the header. -/
theorem textsFrom_readArms (hbody : ∀ inner start, TextsFrom inner (body inner start))
    {text : Text} {base : Nat} {arm : ReadArm} (harm : arm ∈ readArms body text base) {t : Text}
    (ht : t = arm.label ∨ t ∈ texts arm.body.nodes) :
    (∀ c ∈ t, c ∈ text) ∧ (WarningFree (selectionWith body text base).2 → BraceFree t) := by
  rw [selectionWith_eq]
  have hsub := ReadArm.diagnostics_subset harm []
  obtain ⟨raw, hraw, rfl⟩ := List.mem_map.mp harm
  rcases ht with rfl | ht
  · rcases Arm.exists_literal hraw with hnil | ⟨label, hlabel, -⟩ | ⟨literal, span, hmem, htrim⟩
    · simp [hnil, BraceFree]
    · simp at hlabel
    · refine ⟨fun c hc => ?_, fun hfree c hc => ?_⟩
      · rw [htrim] at hc
        exact mem_of_mem_afterHeader (mem_of_mem_content hmem (mem_of_mem_trim hc))
      · rw [htrim] at hc
        have hscan : WarningFree ((Scan.ofText (afterHeader text)).diagnostics
            (afterHeaderAt text base)) :=
          hfree.mono fun d hd => by simp [hd]
        exact braceFree_of_mem_segments hscan hmem c (mem_of_mem_trim hc)
  · obtain ⟨span, hspan⟩ := Arm.exists_group hraw
    obtain ⟨hchars, hbraces⟩ := hbody _ _ t ht
    refine ⟨fun c hc => mem_of_mem_afterHeader (mem_of_mem_content hspan (hchars c hc)), ?_⟩
    exact fun hfree => hbraces (hfree.mono fun d hd => by simp [hsub hd])

theorem textsFrom_groupWith (hbody : ∀ inner start, TextsFrom inner (body inner start))
    (content : Text) (span : Span) : TextsFrom content (groupWith body content span) := by
  intro t ht
  rw [groupWith] at ht ⊢
  split_ifs at ht ⊢ with hword hheader
  · simp [texts, nodeTexts] at ht
  · simp only [selectionWith_eq, Selection.nodeAt, texts, nodeTexts, List.append_nil,
      List.mem_append, mem_caseTexts] at ht
    rcases ht with ⟨c, hc, ht⟩ | ht
    · obtain ⟨arm, harm, rfl⟩ := List.mem_map.mp hc
      exact textsFrom_readArms hbody (List.mem_of_mem_filter harm) ht
    · cases hfallback : ReadArm.fallback? (readArms body content (span.start + 1)) with
      | none =>
        obtain rfl : t = [] := by simpa [hfallback, emptyBody, texts, nodeTexts] using ht
        simp [BraceFree]
      | some nodes =>
        obtain ⟨arm, harm, rfl⟩ := Option.map_eq_some_iff.mp hfallback
        rw [hfallback] at ht
        have hmem := List.mem_of_mem_filter (List.mem_of_getLast? harm)
        exact textsFrom_readArms hbody hmem (.inr ht)
  · obtain rfl : t = content := by simpa [texts, nodeTexts] using ht
    exact ⟨fun c hc => hc, fun hfree => absurd rfl (hfree _ List.mem_cons_self)⟩

theorem textsFrom_nodesWith (hbody : ∀ inner start, TextsFrom inner (body inner start))
    (text : Text) (base : Nat) : TextsFrom text (nodesWith body text base) := by
  intro t ht
  simp only [nodesWith, Parsed.append, Parsed.concat_nodes, List.nil_append, List.flatMap_map,
    mem_texts_flatMap] at ht
  obtain ⟨segment, hsegment, ht⟩ := ht
  cases segment with
  | literal literal span =>
    obtain rfl : t = literal := by simpa [texts, nodeTexts] using ht
    refine ⟨fun c hc => mem_of_mem_content hsegment hc, fun hfree => ?_⟩
    have hscan : WarningFree ((Scan.ofText text).diagnostics base) :=
      hfree.mono fun d hd => List.mem_append_left _ hd
    exact braceFree_of_mem_segments hscan hsegment
  | group content span =>
    obtain ⟨hchars, hbraces⟩ := textsFrom_groupWith hbody content (span.shift base) t ht
    refine ⟨fun c hc => mem_of_mem_content hsegment (hchars c hc), fun hfree => ?_⟩
    refine hbraces (hfree.mono fun d hd => List.mem_append_right _ ?_)
    rw [Parsed.concat_diagnostics, List.flatMap_map]
    exact List.mem_flatMap.mpr ⟨_, hsegment, hd⟩

end Levels

/-- Texts and labels of a pattern that was read come from the pattern. -/
theorem textsFrom_parseAt (text : Text) (base : Nat) : TextsFrom text (parseAt text base) := by
  induction hlength : text.length using Nat.strong_induction_on generalizing text base with
  | _ n ih =>
    rw [parseAt]
    refine textsFrom_nodesWith (fun inner start => ?_) text base
    split_ifs with hinner
    · exact ih inner.length (hlength ▸ hinner) inner start rfl
    · intro t ht
      simp [texts] at ht

/-- Texts and labels consist of characters of the pattern. -/
theorem mem_of_mem_texts {pattern t : Text} (ht : t ∈ texts (parse pattern).nodes) {c : Char}
    (hc : c ∈ t) : c ∈ pattern :=
  (textsFrom_parseAt pattern 0 t ht).1 c hc

/-- Texts and labels of a pattern without warnings have no braces. -/
theorem braceFree_of_warningFree {pattern t : Text} (ht : t ∈ texts (parse pattern).nodes)
    (hfree : WarningFree (parse pattern).diagnostics) : BraceFree t :=
  (textsFrom_parseAt pattern 0 t ht).2 hfree

end Phrasebook.Pattern
