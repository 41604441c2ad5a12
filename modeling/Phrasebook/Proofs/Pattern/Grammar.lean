import Phrasebook.Proofs.Pattern.Parsing
import Mathlib.Data.List.Nodup

/-!
# The grammar of patterns

A pattern is a sequence of pieces: texts without braces, placeholders, and selects whose arms hold
patterns again. A piece keeps all that it is spelled with, blanks included, so a derivation of a
text is a list of pieces that spells it and keeps the rules of the grammar.

## Main definitions

* `Pattern.Piece`, `Pattern.Branch`: the pieces of a pattern and the arms of a select, as spelled.
* `Pattern.IsPattern`: the rules of the grammar.
* `Pattern.Derivation`: a way to derive a text.
* `Pattern.Derivation.tree`: the nodes that a derivation stands for, without their places.

## Main results

* `Pattern.IsPattern.chunked`: the pieces of a pattern are the chunks of what they spell.
* `Pattern.Derivation.unique`: a text has at most one derivation.
-/

namespace Phrasebook.Pattern

open Text

mutual
/-- A piece of a pattern, as it is spelled. -/
inductive Piece where
  /-- Text that stands for itself. -/
  | text (text : Text)
  /-- A name between braces, with blanks around it. -/
  | placeholder (before name after : Text)
  /-- A heading, arms and blanks between braces. -/
  | select (heading : Heading) (arms : List Branch) (blanks : Text)

/-- An arm of a select, as it is spelled: a label, and pieces between braces. -/
structure Branch where
  label : Text
  body : List Piece
end

/-! ### Spelling -/

mutual
/-- How a piece is spelled. -/
def Piece.spell : Piece → Text
  | .text text => text
  | .placeholder before name after => '{' :: (before ++ name ++ after) ++ ['}']
  | .select heading arms blanks => '{' :: (heading.spell ++ (spellArms arms ++ blanks)) ++ ['}']

/-- How pieces are spelled. -/
def spellPieces : List Piece → Text
  | [] => []
  | piece :: rest => piece.spell ++ spellPieces rest

/-- How arms are spelled. -/
def spellArms : List Branch → Text
  | [] => []
  | ⟨label, body⟩ :: rest => label ++ ('{' :: spellPieces body ++ ['}']) ++ spellArms rest
end

/-! ### Rules -/

/-- Whether a piece is text. -/
def Piece.isText : Piece → Bool
  | .text _ => true
  | .placeholder _ _ _ => false
  | .select _ _ _ => false

/-- Two pieces can stand next to each other unless both are texts. -/
def Piece.CanPrecede (a b : Piece) : Prop := ¬ (a.isText ∧ b.isText)

/-- A text is a word: one or more letters, digits and underscores of ASCII. -/
def IsWord (text : Text) : Prop := text ≠ [] ∧ ∀ c ∈ text, isWordChar c = true

/-- The labels of arms, without the blanks around them. -/
def labels (arms : List Branch) : List Text := arms.map fun arm => trim arm.label

/-- One label is that of the fallback, and all others differ from each other. -/
def LabelsDiffer (labels : List Text) : Prop :=
  labels.count other = 1 ∧ (labels.filter fun label => label ≠ other).Nodup

mutual
/-- A piece keeps the rules. -/
def Piece.WellFormed : Piece → Prop
  | .text text => text ≠ [] ∧ BraceFree text
  | .placeholder before name after => Blank before ∧ IsWord name ∧ Blank after
  | .select heading arms blanks =>
    heading.Valid ∧ LabelsDiffer (labels arms) ∧ WellFormedArms arms ∧ Blank blanks

/-- Each of the pieces keeps the rules. -/
def WellFormedPieces : List Piece → Prop
  | [] => True
  | piece :: rest => piece.WellFormed ∧ WellFormedPieces rest

/-- Each of the arms has a label without braces and a pattern. -/
def WellFormedArms : List Branch → Prop
  | [] => True
  | ⟨label, body⟩ :: rest =>
    (BraceFree label ∧ body.IsChain Piece.CanPrecede ∧ WellFormedPieces body) ∧ WellFormedArms rest
end

/-- Pieces form a pattern if each keeps the rules and no two texts are adjacent. -/
def IsPattern (pieces : List Piece) : Prop :=
  pieces.IsChain Piece.CanPrecede ∧ WellFormedPieces pieces

/-- A way to derive a text. -/
structure Derivation (pattern : Text) where
  pieces : List Piece
  isPattern : IsPattern pieces
  spelled : spellPieces pieces = pattern

/-! ### Trees -/

/-- Where a node without a place stands. -/
def nowhere : Span := .point 0

mutual
/-- The node of a piece. -/
def Piece.node : Piece → Node
  | .text text => .text text nowhere
  | .placeholder _ name _ => .placeholder name nowhere
  | .select heading arms _ => .select heading.name (armCases arms) (armFallback arms) nowhere

/-- The nodes of pieces. -/
def pieceNodes : List Piece → List Node
  | [] => []
  | piece :: rest => piece.node :: pieceNodes rest

/-- The cases of a select: all arms but the fallback. -/
def armCases : List Branch → List Case
  | [] => []
  | ⟨label, body⟩ :: rest =>
    if trim label = other then armCases rest
    else ⟨trim label, pieceNodes body, nowhere⟩ :: armCases rest

/-- The fallback of a select. -/
def armFallback : List Branch → List Node
  | [] => []
  | ⟨label, body⟩ :: rest => if trim label = other then pieceNodes body else armFallback rest
end

/-- The nodes that a derivation stands for. -/
def Derivation.tree {pattern : Text} (d : Derivation pattern) : List Node := pieceNodes d.pieces

mutual
/-- A node without its places. -/
def Node.unplaced : Node → Node
  | .text value _ => .text value nowhere
  | .placeholder name _ => .placeholder name nowhere
  | .select name cases fallback _ =>
    .select name (unplacedCases cases) (unplacedNodes fallback) nowhere

/-- Nodes without their places. -/
def unplacedNodes : List Node → List Node
  | [] => []
  | node :: rest => node.unplaced :: unplacedNodes rest

/-- Cases without their places. -/
def unplacedCases : List Case → List Case
  | [] => []
  | ⟨label, body, _⟩ :: rest => ⟨label, unplacedNodes body, nowhere⟩ :: unplacedCases rest
end

theorem wellFormedPieces_iff {pieces : List Piece} :
    WellFormedPieces pieces ↔ ∀ piece ∈ pieces, piece.WellFormed := by
  induction pieces with
  | nil => simp [WellFormedPieces]
  | cons piece pieces ih => simp [WellFormedPieces, ih]

theorem wellFormedArms_iff {arms : List Branch} :
    WellFormedArms arms ↔ ∀ arm ∈ arms, BraceFree arm.label ∧ IsPattern arm.body := by
  induction arms with
  | nil => simp [WellFormedArms]
  | cons arm arms ih =>
    obtain ⟨label, body⟩ := arm
    simp [WellFormedArms, ih, IsPattern]

/-- The labels differ as they should if and only if none is repeated and the fallback's is there. -/
theorem labelsDiffer_iff {labels : List Text} :
    LabelsDiffer labels ↔ labels.Nodup ∧ other ∈ labels := by
  constructor
  · rintro ⟨hcount, hnodup⟩
    refine ⟨List.nodup_iff_count_le_one.mpr fun label => ?_, ?_⟩
    · by_cases hother : label = other
      · rw [hother, hcount]
      · have hkept : decide (label ≠ other) = true := by simpa using hother
        rw [← List.count_filter (p := fun label => decide (label ≠ other)) hkept]
        exact List.nodup_iff_count_le_one.mp hnodup label
    · exact List.count_pos_iff.mp (by omega)
  · rintro ⟨hnodup, hmem⟩
    exact ⟨List.count_eq_one_of_mem hnodup hmem, hnodup.filter _⟩

/-! ### Braces in what pieces spell -/

theorem BraceFree.append {a b : Text} (ha : BraceFree a) (hb : BraceFree b) :
    BraceFree (a ++ b) :=
  fun c hc => (List.mem_append.mp hc).elim (ha c) (hb c)

/-- A text that leaves out all characters for which a test fails has no braces if the braces fail
the test. -/
theorem braceFree_of_forall {p : Char → Bool} {text : Text} (h : ∀ c ∈ text, p c = true)
    (hopen : p '{' = false) (hclose : p '}' = false) : BraceFree text := by
  intro c hc
  constructor
  · rintro rfl
    rw [h _ hc] at hopen
    contradiction
  · rintro rfl
    rw [h _ hc] at hclose
    contradiction

theorem braceFree_of_blank {text : Text} (h : Blank text) : BraceFree text :=
  braceFree_of_forall h (by decide) (by decide)

theorem IsWord.braceFree {text : Text} (h : IsWord text) : BraceFree text :=
  braceFree_of_forall h.2 (by decide) (by decide)

theorem IsSelectWord.braceFree {word : Text} (h : IsSelectWord word) : BraceFree word := by
  have hletters : ∀ c ∈ word, foldCase c ∈ ("select" : Text) := by
    intro c hc
    rw [← h]
    exact List.mem_map_of_mem hc
  intro c hc
  constructor
  · rintro rfl
    exact absurd (hletters _ hc) (by decide)
  · rintro rfl
    exact absurd (hletters _ hc) (by decide)

theorem Heading.Valid.braceFree {h : Heading} (valid : h.Valid) : BraceFree h.spell := by
  have hcomma : BraceFree [','] := by simp [BraceFree]
  have hname : IsWord h.name := ⟨valid.name_ne_nil, valid.name⟩
  have hfirst := ((braceFree_of_blank valid.beforeName).append hname.braceFree).append
    (braceFree_of_blank valid.afterName)
  have hsecond := ((hfirst.append hcomma).append (braceFree_of_blank valid.beforeKeyword)).append
    valid.keyword.braceFree
  exact (hsecond.append (braceFree_of_blank valid.afterKeyword)).append hcomma

/-- A name with blanks around it has no braces. -/
theorem braceFree_padded {before name after : Text} (hbefore : Blank before) (hname : IsWord name)
    (hafter : Blank after) : BraceFree (before ++ name ++ after) :=
  ((braceFree_of_blank hbefore).append hname.braceFree).append (braceFree_of_blank hafter)

/-! ### Pieces as chunks -/

/-- The chunk of a piece. -/
def Piece.chunk : Piece → Chunk
  | .text content => .literal content
  | .placeholder before name after => .group (before ++ name ++ after)
  | .select heading arms blanks => .group (heading.spell ++ (spellArms arms ++ blanks))

theorem Piece.spell_chunk (piece : Piece) : piece.chunk.spell = piece.spell := by
  cases piece <;> simp [chunk, Chunk.spell, Piece.spell]

theorem Piece.isLiteral_chunk (piece : Piece) : piece.chunk.isLiteral = piece.isText := by
  cases piece <;> rfl

theorem spell_map_chunk (pieces : List Piece) :
    spell (pieces.map Piece.chunk) = spellPieces pieces := by
  induction pieces with
  | nil => rfl
  | cons piece pieces ih => rw [List.map_cons, spell_cons, ih, piece.spell_chunk, spellPieces]

mutual
theorem Piece.WellFormed.valid_chunk {piece : Piece} (h : piece.WellFormed) :
    piece.chunk.Valid := by
  match piece, h with
  | .text _, h => exact h
  | .placeholder _ _ _, h => exact (braceFree_padded h.1 h.2.1 h.2.2).balanced
  | .select _ _ _, h =>
    obtain ⟨hheading, -, harms, hblanks⟩ := h
    have hrest := (balanced_spellArms harms).append (braceFree_of_blank hblanks).balanced
    exact hheading.braceFree.balanced.append hrest

theorem balanced_spellPieces {pieces : List Piece} (h : WellFormedPieces pieces) :
    Balanced (spellPieces pieces) := by
  match pieces, h with
  | [], _ => exact balanced_nil
  | piece :: _, h =>
    have hpiece := h.1.valid_chunk.balanced_spell
    rw [piece.spell_chunk] at hpiece
    exact hpiece.append (balanced_spellPieces h.2)

theorem balanced_spellArms {arms : List Branch} (h : WellFormedArms arms) :
    Balanced (spellArms arms) := by
  match arms, h with
  | [], _ => exact balanced_nil
  | ⟨_, _⟩ :: _, h =>
    obtain ⟨⟨hlabel, -, hbody⟩, hrest⟩ := h
    have hgroup := (balanced_spellPieces hbody).braces
    exact (hlabel.balanced.append hgroup).append (balanced_spellArms hrest)
end

/-- Texts are not adjacent if and only if literals are not. -/
theorem isChain_map_chunk {pieces : List Piece} :
    (pieces.map Piece.chunk).IsChain Chunk.CanPrecede ↔ pieces.IsChain Piece.CanPrecede := by
  rw [List.isChain_map]
  simp only [Chunk.CanPrecede, Piece.isLiteral_chunk]
  rfl

/-- The pieces of a pattern are the chunks of what they spell. -/
theorem IsPattern.chunked {pieces : List Piece} (h : IsPattern pieces) :
    Chunked (pieces.map Piece.chunk) := by
  refine ⟨?_, isChain_map_chunk.mpr h.1⟩
  intro chunk hchunk
  obtain ⟨piece, hpiece, rfl⟩ := List.mem_map.mp hchunk
  exact (wellFormedPieces_iff.mp h.2 piece hpiece).valid_chunk

/-! ### Arms as chunks -/

/-- A label and the content of the group after it. -/
structure Strip where
  label : Text
  content : Text

/-- The literal of a label, which is not there if the label is empty. -/
def labelChunks (label : Text) : List Chunk := if label = [] then [] else [.literal label]

/-- The chunks of labelled groups, and of a text after the last one. -/
def stripChunks : List Strip → Text → List Chunk
  | [], last => labelChunks last
  | strip :: rest, last =>
    labelChunks strip.label ++ .group strip.content :: stripChunks rest last

/-- The label of an arm and what its body spells. -/
def Branch.strip (arm : Branch) : Strip := ⟨arm.label, spellPieces arm.body⟩

@[simp] theorem spell_labelChunks (label : Text) (chunks : List Chunk) :
    spell (labelChunks label ++ chunks) = label ++ spell chunks := by
  rw [labelChunks]
  split_ifs with h
  · simp [h]
  · simp [Chunk.spell]

theorem spell_stripChunks (arms : List Branch) (last : Text) :
    spell (stripChunks (arms.map Branch.strip) last) = spellArms arms ++ last := by
  induction arms with
  | nil => simpa [stripChunks, spellArms] using spell_labelChunks last []
  | cons arm arms ih =>
    obtain ⟨label, body⟩ := arm
    simp [stripChunks, spellArms, Chunk.spell, Branch.strip, ih]

theorem isChain_labelChunks {label : Text} {content : Text} {chunks : List Chunk}
    (h : (.group content :: chunks).IsChain Chunk.CanPrecede) :
    (labelChunks label ++ .group content :: chunks).IsChain Chunk.CanPrecede := by
  rw [labelChunks]
  split_ifs
  · exact h
  · exact List.isChain_cons_cons.mpr ⟨fun hboth => Bool.noConfusion hboth.2, h⟩

theorem valid_of_mem_labelChunks {label : Text} (h : BraceFree label) {chunk : Chunk}
    (hmem : chunk ∈ labelChunks label) : chunk.Valid := by
  rw [labelChunks] at hmem
  split_ifs at hmem with hnil
  · simp at hmem
  · obtain rfl := List.mem_singleton.mp hmem
    exact ⟨hnil, h⟩

/-- Labelled groups are chunks. -/
theorem chunked_stripChunks {strips : List Strip} {last : Text}
    (h : ∀ strip ∈ strips, BraceFree strip.label ∧ Balanced strip.content)
    (hlast : BraceFree last) : Chunked (stripChunks strips last) := by
  induction strips with
  | nil =>
    refine ⟨fun chunk hmem => valid_of_mem_labelChunks hlast hmem, ?_⟩
    rw [stripChunks, labelChunks]
    split_ifs
    · exact .nil
    · exact .singleton _
  | cons strip strips ih =>
    obtain ⟨hlabel, hcontent⟩ := h strip List.mem_cons_self
    have hrest := ih fun other hmem => h other (List.mem_cons_of_mem _ hmem)
    refine ⟨?_, isChain_labelChunks ?_⟩
    · intro chunk hmem
      rcases List.mem_append.mp hmem with hmem | hmem
      · exact valid_of_mem_labelChunks hlabel hmem
      · rcases List.mem_cons.mp hmem with rfl | hmem
        · exact hcontent
        · exact hrest.valid chunk hmem
    · exact List.isChain_cons.mpr ⟨fun _ _ hboth => Bool.noConfusion hboth.1, hrest.apart⟩

/-- Chunks are labelled groups and a text after the last one. -/
theorem exists_stripChunks {chunks : List Chunk} (h : Chunked chunks) :
    ∃ strips last, (∀ strip ∈ strips, BraceFree strip.label ∧ Balanced strip.content) ∧
      BraceFree last ∧ stripChunks strips last = chunks := by
  induction chunks with
  | nil => exact ⟨[], [], by simp, by simp [BraceFree], rfl⟩
  | cons chunk chunks ih =>
    obtain ⟨strips, last, hstrips, hlast, rfl⟩ := ih h.tail
    have hchunk := h.valid chunk List.mem_cons_self
    cases chunk with
    | group content =>
      refine ⟨⟨[], content⟩ :: strips, last, ?_, hlast, rfl⟩
      intro strip hmem
      rcases List.mem_cons.mp hmem with rfl | hmem
      · exact ⟨by simp [BraceFree], hchunk⟩
      · exact hstrips strip hmem
    | literal label =>
      obtain ⟨hnil, hfree⟩ : label ≠ [] ∧ BraceFree label := hchunk
      have hnext : ∀ next ∈ (stripChunks strips last).head?, next.isLiteral = false := by
        intro next hnext
        have hpair := (List.isChain_cons.mp h.apart).1 next hnext
        simpa [Chunk.CanPrecede, Chunk.isLiteral] using hpair
      cases strips with
      | nil =>
        obtain rfl : last = [] := by
          by_contra hlast
          simp [stripChunks, labelChunks, hlast, Chunk.isLiteral] at hnext
        exact ⟨[], label, by simp, hfree, by simp [stripChunks, labelChunks, hnil]⟩
      | cons first strips =>
        obtain ⟨label', content⟩ := first
        obtain rfl : label' = [] := by
          by_contra hlabel'
          simp [stripChunks, labelChunks, hlabel', Chunk.isLiteral] at hnext
        refine ⟨⟨label, content⟩ :: strips, last, ?_, hlast, ?_⟩
        · intro strip hmem
          rcases List.mem_cons.mp hmem with rfl | hmem
          · exact ⟨hfree, (hstrips _ List.mem_cons_self).2⟩
          · exact hstrips strip (List.mem_cons_of_mem _ hmem)
        · simp [stripChunks, labelChunks, hnil]

theorem labelChunks_group_inj {label label' content content' : Text} {chunks chunks' : List Chunk}
    (h : labelChunks label ++ .group content :: chunks =
      labelChunks label' ++ .group content' :: chunks') :
    label = label' ∧ content = content' ∧ chunks = chunks' := by
  simp only [labelChunks] at h
  split_ifs at h <;> simp_all

/-- Labelled groups and the text after them can be told apart. -/
theorem stripChunks_injective {strips strips' : List Strip} {last last' : Text}
    (h : stripChunks strips last = stripChunks strips' last') :
    strips = strips' ∧ last = last' := by
  induction strips generalizing strips' with
  | nil =>
    cases strips' with
    | nil =>
      simp only [stripChunks, labelChunks] at h
      split_ifs at h <;> simp_all
    | cons strip' strips' =>
      simp only [stripChunks, labelChunks] at h
      split_ifs at h <;> simp_all
  | cons strip strips ih =>
    cases strips' with
    | nil =>
      simp only [stripChunks, labelChunks] at h
      split_ifs at h <;> simp_all
    | cons strip' strips' =>
      obtain ⟨hlabel, hcontent, hrest⟩ := labelChunks_group_inj h
      obtain ⟨rfl, rfl⟩ := ih hrest
      cases strip
      cases strip'
      simp_all

/-- The arms of a select are the chunks of what they spell. -/
theorem chunked_arms {arms : List Branch} {blanks : Text} (h : WellFormedArms arms)
    (hblanks : Blank blanks) : Chunked (stripChunks (arms.map Branch.strip) blanks) := by
  refine chunked_stripChunks ?_ (braceFree_of_blank hblanks)
  intro strip hmem
  obtain ⟨arm, harm, rfl⟩ := List.mem_map.mp hmem
  obtain ⟨hlabel, -, hbody⟩ := wellFormedArms_iff.mp h arm harm
  exact ⟨hlabel, balanced_spellPieces hbody⟩

/-! ### Unique derivations -/

/-- A name with blanks around it is spelled in one way. -/
theorem padded_injective {before name after before' name' after' : Text} (hbefore : Blank before)
    (hname : IsWord name) (hafter : Blank after) (hbefore' : Blank before') (hname' : IsWord name')
    (hafter' : Blank after') (h : before ++ name ++ after = before' ++ name' ++ after') :
    before = before' ∧ name = name' ∧ after = after' := by
  have hend {blanks : Text} (hblanks : Blank blanks) :
      ∀ c ∈ blanks.head?, isWordChar c = false := by
    intro c hc
    cases hword : isWordChar c with
    | false => rfl
    | true =>
      have hblank := hblanks c (List.mem_of_mem_head? hc)
      rw [isBlank_of_isWordChar hword] at hblank
      contradiction
  rw [List.append_assoc, List.append_assoc] at h
  obtain ⟨rfl, hrest⟩ := Lists.run_inj hbefore (startsSolid_of_word hname.2 hname.1 after) hbefore'
    (startsSolid_of_word hname'.2 hname'.1 after') h
  obtain ⟨rfl, rfl⟩ := Lists.run_inj hname.2 (hend hafter) hname'.2 (hend hafter') hrest
  exact ⟨rfl, rfl, rfl⟩

/-- A name with blanks around it is no heading, for it has no comma. -/
theorem padded_ne_heading {before name after rest : Text} {heading : Heading}
    (hbefore : Blank before) (hname : IsWord name) (hafter : Blank after) :
    before ++ name ++ after ≠ heading.spell ++ rest := by
  intro h
  have hcomma : ',' ∈ before ++ name ++ after := by
    rw [h]
    simp [Heading.spell]
  simp only [List.mem_append] at hcomma
  rcases hcomma with (hmem | hmem) | hmem
  · exact absurd (hbefore _ hmem) (by decide)
  · exact absurd (hname.2 _ hmem) (by decide)
  · exact absurd (hafter _ hmem) (by decide)

mutual
theorem Piece.WellFormed.unique {a b : Piece} (ha : a.WellFormed) (hb : b.WellFormed)
    (h : a.chunk = b.chunk) : a = b := by
  match a, b, ha, hb, h with
  | .text _, .text _, _, _, h => rw [Chunk.literal.inj h]
  | .placeholder _ _ _, .placeholder _ _ _, ha, hb, h =>
    obtain ⟨rfl, rfl, rfl⟩ :=
      padded_injective ha.1 ha.2.1 ha.2.2 hb.1 hb.2.1 hb.2.2 (Chunk.group.inj h)
    rfl
  | .placeholder _ _ _, .select _ _ _, ha, _, h =>
    exact absurd (Chunk.group.inj h) (padded_ne_heading ha.1 ha.2.1 ha.2.2)
  | .select _ _ _, .placeholder _ _ _, _, hb, h =>
    exact absurd (Chunk.group.inj h).symm (padded_ne_heading hb.1 hb.2.1 hb.2.2)
  | .select heading arms blanks, .select heading' arms' blanks', ha, hb, h =>
    obtain ⟨hheading, -, harms, hblanks⟩ := ha
    obtain ⟨hheading', -, harms', hblanks'⟩ := hb
    obtain ⟨rfl, hrest⟩ := Heading.append_injective hheading hheading' (Chunk.group.inj h)
    -- What follows the heading is cut into chunks in one way, and those into arms.
    rw [← spell_stripChunks, ← spell_stripChunks] at hrest
    have hchunks :=
      spell_injective (chunked_arms harms hblanks) (chunked_arms harms' hblanks') hrest
    obtain ⟨hstrips, rfl⟩ := stripChunks_injective hchunks
    rw [unique_arms harms harms' hstrips]

theorem unique_pieces {a b : List Piece} (ha : WellFormedPieces a) (hb : WellFormedPieces b)
    (h : a.map Piece.chunk = b.map Piece.chunk) : a = b := by
  match a, b, ha, hb, h with
  | [], [], _, _, _ => rfl
  | _ :: _, _ :: _, ha, hb, h =>
    rw [List.map_cons, List.map_cons, List.cons.injEq] at h
    rw [ha.1.unique hb.1 h.1, unique_pieces ha.2 hb.2 h.2]

theorem unique_arms {a b : List Branch} (ha : WellFormedArms a) (hb : WellFormedArms b)
    (h : a.map Branch.strip = b.map Branch.strip) : a = b := by
  match a, b, ha, hb, h with
  | [], [], _, _, _ => rfl
  | ⟨label, body⟩ :: _, ⟨label', body'⟩ :: _, ha, hb, h =>
    obtain ⟨⟨-, hbody⟩, harms⟩ := ha
    obtain ⟨⟨-, hbody'⟩, harms'⟩ := hb
    rw [List.map_cons, List.map_cons, List.cons.injEq] at h
    obtain ⟨rfl, hspell⟩ := Strip.mk.inj h.1
    rw [← spell_map_chunk, ← spell_map_chunk] at hspell
    have hchunks := spell_injective (IsPattern.chunked hbody) (IsPattern.chunked hbody') hspell
    rw [unique_pieces hbody.2 hbody'.2 hchunks, unique_arms harms harms' h.2]
end

/-- A text has at most one derivation. -/
theorem Derivation.unique {pattern : Text} (a b : Derivation pattern) : a = b := by
  have hspell : spell (a.pieces.map Piece.chunk) = spell (b.pieces.map Piece.chunk) := by
    rw [spell_map_chunk, spell_map_chunk, a.spelled, b.spelled]
  have hchunks := spell_injective a.isPattern.chunked b.isPattern.chunked hspell
  have hpieces := unique_pieces a.isPattern.2 b.isPattern.2 hchunks
  cases a
  cases b
  congr

end Phrasebook.Pattern
