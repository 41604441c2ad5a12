import Phrasebook.Proofs.Text.Bytes
import Phrasebook.Proofs.Text.Fields
import Phrasebook.Span
import Phrasebook.Text.Lines
import Mathlib.Data.List.Induction
import Mathlib.Data.List.TakeWhile
import Mathlib.Data.Prod.Lex
import Mathlib.Data.Set.Function
import Mathlib.Order.Interval.Set.Defs

/-!
# Positions of bytes

A line index is built from the characters of a text and asked for byte offsets, which may lie inside
of a character. The byte of a line feed occurs in no other character, so the line breaks of a text
are those of its bytes, and the breaks up to an offset are those of the bytes in front of it. What
stands in front of an offset thus decides its line and its column.

## Main definitions

* `Text.byteBreaks`: the line breaks of bytes.
* `Text.IsLastStart`: where the last line of bytes starts.
* `Text.LineIndex.starts`, `Text.Position.key`: where the lines of an index start, and the order of
  positions.
* `Text.LineIndex.Exact`: an index gives exact positions.

## Main results

* `Text.lineBreaks_eq_byteBreaks`: the line breaks of a text are those of its bytes.
* `Text.takeWhile_byteBreaks`: the breaks up to an offset are those of the bytes in front of it.
* `Text.position_width`: the line and the column of what stands behind a text.
* `Text.ofText_exact`: the line index of a text gives exact positions.
-/

namespace Phrasebook.Text

/-! ### Breaks among bytes -/

/-- The byte of a line feed. -/
def lineFeed : UInt8 := '\n'.toUInt8

/-- The offsets right behind the line feeds among bytes, the first of which is at `offset`. -/
def byteBreaks (offset : Nat) : List UInt8 → List Nat
  | [] => []
  | b :: rest =>
    if b = lineFeed then (offset + 1) :: byteBreaks (offset + 1) rest
    else byteBreaks (offset + 1) rest

section Breaks

variable {offset : Nat} {bs : List UInt8}

theorem byteBreaks_append (offset : Nat) (front back : List UInt8) :
    byteBreaks offset (front ++ back) =
      byteBreaks offset front ++ byteBreaks (offset + front.length) back := by
  induction front generalizing offset with
  | nil => rfl
  | cons b rest ih =>
    have hnext : offset + 1 + rest.length = offset + (b :: rest).length := by
      rw [List.length_cons]
      omega
    rw [List.cons_append, byteBreaks, byteBreaks, ih, hnext]
    split_ifs <;> rfl

theorem length_byteBreaks (offset : Nat) (bs : List UInt8) :
    (byteBreaks offset bs).length = bs.count lineFeed := by
  induction bs generalizing offset with
  | nil => rfl
  | cons b rest ih =>
    rw [byteBreaks]
    split_ifs with hb
    · rw [List.length_cons, ih, hb, List.count_cons_self]
    · rw [ih, List.count_cons_of_ne hb]

theorem byteBreaks_eq_nil (h : lineFeed ∉ bs) : byteBreaks offset bs = [] := by
  rw [← List.length_eq_zero_iff, length_byteBreaks, List.count_eq_zero]
  exact h

/-- Breaks stand behind the start of the bytes and not behind their end. -/
theorem bounds_of_mem_byteBreaks {position : Nat} (h : position ∈ byteBreaks offset bs) :
    offset < position ∧ position ≤ offset + bs.length := by
  induction bs generalizing offset with
  | nil => exact absurd h List.not_mem_nil
  | cons b rest ih =>
    have hrest (hmem : position ∈ byteBreaks (offset + 1) rest) :
        offset < position ∧ position ≤ offset + (b :: rest).length := by
      have hbounds := ih hmem
      rw [List.length_cons]
      omega
    rw [byteBreaks] at h
    split_ifs at h
    · rcases List.mem_cons.mp h with rfl | h
      · rw [List.length_cons]
        omega
      · exact hrest h
    · exact hrest h

/-- Breaks are in order, and behind the start of the bytes. -/
theorem pairwise_byteBreaks (offset : Nat) (bs : List UInt8) :
    (offset :: byteBreaks offset bs).Pairwise (· < ·) := by
  refine List.pairwise_cons.mpr ⟨fun position h => (bounds_of_mem_byteBreaks h).1, ?_⟩
  induction bs generalizing offset with
  | nil => exact List.Pairwise.nil
  | cons b rest ih =>
    rw [byteBreaks]
    split_ifs
    · exact List.pairwise_cons.mpr
        ⟨fun position h => (bounds_of_mem_byteBreaks h).1, ih (offset + 1)⟩
    · exact ih (offset + 1)

/-- The breaks up to an offset are those of the bytes in front of it. -/
theorem takeWhile_byteBreaks (offset n : Nat) (bs : List UInt8) :
    (byteBreaks offset bs).takeWhile (· ≤ offset + n) = byteBreaks offset (bs.take n) := by
  induction bs generalizing offset n with
  | nil => simp [byteBreaks]
  | cons b rest ih =>
    cases n with
    | zero =>
      rw [List.take_zero, byteBreaks, List.takeWhile_eq_nil_iff]
      intro hpos hle
      have hbounds := bounds_of_mem_byteBreaks (List.get_mem _ ⟨0, hpos⟩)
      rw [decide_eq_true_eq] at hle
      exact absurd hbounds.1 (Nat.not_lt.mpr hle)
    | succ n =>
      have hnext : offset + (n + 1) = offset + 1 + n := by omega
      rw [List.take_succ_cons, byteBreaks, byteBreaks, hnext]
      split_ifs
      · rw [List.takeWhile_cons_of_pos (by simp), ih]
      · exact ih (offset + 1) n

end Breaks

theorem lineFeed_not_mem_bytes {text : Text} (h : '\n' ∉ text) : lineFeed ∉ bytes text := by
  rwa [← List.count_eq_zero, lineFeed, count_bytes (by decide), List.count_eq_zero]

theorem byteBreaks_utf8EncodeChar {c : Char} (offset : Nat) (h : c ≠ '\n') :
    byteBreaks offset (String.utf8EncodeChar c) = [] :=
  byteBreaks_eq_nil (not_mem_utf8EncodeChar (a := '\n') (by decide) h)

/-- The line breaks of a text are those of its bytes. -/
theorem lineBreaks_eq_byteBreaks (offset : Nat) (text : Text) :
    lineBreaks offset text = byteBreaks offset (bytes text) := by
  induction text generalizing offset with
  | nil => rfl
  | cons c rest ih =>
    rw [lineBreaks, bytes_cons, byteBreaks_append, String.length_utf8EncodeChar, ih]
    split_ifs with hc
    · rw [hc]
      rfl
    · -- The byte of a line feed is in no other character, not even in one of several bytes.
      rw [byteBreaks_utf8EncodeChar offset hc, List.nil_append]

/-! ### The last line -/

/-- The last line of bytes starts here: right behind a line feed or at the start of the bytes, with
no line feed behind it. -/
structure IsLastStart (bs : List UInt8) (start : Nat) : Prop where
  le : start ≤ bs.length
  behind : start = 0 ∨ bs[start - 1]? = some lineFeed
  clear : lineFeed ∉ bs.drop start

/-- The offset behind the last break, or the start of the bytes. -/
def lastStart (bs : List UInt8) : Nat := (byteBreaks 0 bs).getLast?.getD 0

theorem lastStart_append {front back : List UInt8} (h : lineFeed ∉ back) :
    lastStart (front ++ back) = lastStart front := by
  rw [lastStart, byteBreaks_append, byteBreaks_eq_nil h, List.append_nil]
  rfl

theorem lastStart_append_lineFeed (front : List UInt8) :
    lastStart (front ++ [lineFeed]) = front.length + 1 := by
  rw [lastStart, byteBreaks_append, Nat.zero_add]
  simp [byteBreaks]

theorem isLastStart_lastStart (bs : List UInt8) : IsLastStart bs (lastStart bs) := by
  induction bs using List.reverseRecOn with
  | nil => exact ⟨le_rfl, .inl rfl, List.not_mem_nil⟩
  | append_singleton front b ih =>
    by_cases hb : b = lineFeed
    · rw [hb, lastStart_append_lineFeed]
      exact ⟨by simp, .inr (by simp), by simp⟩
    · have hnot : lineFeed ∉ [b] := by
        rw [List.mem_singleton]
        exact fun h => hb h.symm
      rw [lastStart_append hnot]
      refine ⟨?_, ih.behind.imp_right fun h => ?_, ?_⟩
      · rw [List.length_append]
        exact Nat.le_add_right_of_le ih.le
      · obtain ⟨hlt, -⟩ := List.getElem?_eq_some_iff.mp h
        rw [List.getElem?_append_left hlt, h]
      · rw [List.drop_append_of_le_length ih.le, List.mem_append, not_or]
        exact ⟨ih.clear, hnot⟩

/-- The last line of a text is its last field. -/
theorem lastStart_add_width (text : Text) :
    lastStart (bytes text) + width ((fields '\n' text).getLastD []) = width text := by
  induction text using List.reverseRecOn with
  | nil => rfl
  | append_singleton front c ih =>
    rw [bytes_append, width_append]
    by_cases hc : c = '\n'
    · have hfeed : bytes ['\n'] = [lineFeed] := rfl
      rw [hc, hfeed, lastStart_append_lineFeed, length_bytes, fields_append_cons, fields,
        List.getLastD_concat]
      rfl
    · have hnot : '\n' ∉ [c] := by simpa using Ne.symm hc
      obtain ⟨before, last, hfront, happend⟩ := exists_fields_append front hnot
      rw [hfront, List.getLastD_concat] at ih
      rw [lastStart_append (lineFeed_not_mem_bytes hnot), happend, List.getLastD_concat,
        width_append, ← ih, Nat.add_assoc]

/-! ### Positions -/

/-- Where the lines of an index start. -/
def LineIndex.starts (index : LineIndex) : List Nat := 0 :: index.breaks

/-- Positions are ordered by their lines, and on a line by their columns. -/
def Position.key (p : Position) : ℕ ×ₗ ℕ := toLex (p.line, p.column)

section Index

variable (text : Text) (offset : Nat)

theorem starts_ofText : (LineIndex.ofText text).starts = 0 :: byteBreaks 0 (bytes text) := by
  rw [LineIndex.starts, LineIndex.ofText, lineBreaks_eq_byteBreaks]

theorem length_take_bytes : ((bytes text).take offset).length = min offset (width text) := by
  rw [List.length_take, length_bytes]

theorem take_min_bytes :
    (bytes text).take (min offset (width text)) = (bytes text).take offset := by
  rw [← length_bytes, ← List.take_eq_take_min]

/-- The bytes in front of an offset decide its line and its column. -/
theorem position_eq :
    (LineIndex.ofText text).position offset =
      ⟨((bytes text).take offset).count lineFeed,
        ((bytes text).take offset).length - lastStart ((bytes text).take offset)⟩ := by
  have hpassed : (lineBreaks 0 text).takeWhile (· ≤ min offset (width text)) =
      byteBreaks 0 ((bytes text).take offset) := by
    have htake := takeWhile_byteBreaks 0 (min offset (width text)) (bytes text)
    rwa [Nat.zero_add, take_min_bytes, ← lineBreaks_eq_byteBreaks] at htake
  rw [LineIndex.position, LineIndex.ofText, lastStart, length_take_bytes]
  simp only [hpassed, length_byteBreaks]

/-- The breaks up to an offset come first. -/
theorem starts_split :
    (LineIndex.ofText text).starts =
      (0 :: byteBreaks 0 ((bytes text).take offset)) ++
        byteBreaks (min offset (width text)) ((bytes text).drop offset) := by
  rw [starts_ofText, ← length_take_bytes, List.cons_append]
  congr 1
  have hsplit := byteBreaks_append 0 ((bytes text).take offset) ((bytes text).drop offset)
  rwa [List.take_append_drop, Nat.zero_add] at hsplit

/-- The line of an offset starts where the last line of the bytes in front of it does. -/
theorem getElem?_starts_line :
    (LineIndex.ofText text).starts[((LineIndex.ofText text).position offset).line]? =
      some (lastStart ((bytes text).take offset)) := by
  rw [starts_split text offset, position_eq]
  dsimp only
  rw [← length_byteBreaks 0, lastStart]
  generalize byteBreaks 0 ((bytes text).take offset) = passed
  cases passed using List.reverseRecOn with
  | nil => rfl
  | append_singleton front last => simp

/-- The lines up to that of an offset start in front of it, and the other ones behind it. -/
theorem start_le_iff {i start : Nat} (h : (LineIndex.ofText text).starts[i]? = some start) :
    start ≤ min offset (width text) ↔ i ≤ ((LineIndex.ofText text).position offset).line := by
  rw [starts_split text offset] at h
  have hlength : (0 :: byteBreaks 0 ((bytes text).take offset)).length =
      ((LineIndex.ofText text).position offset).line + 1 := by
    rw [position_eq, List.length_cons, length_byteBreaks]
  by_cases hi : i ≤ ((LineIndex.ofText text).position offset).line
  · rw [List.getElem?_append_left (by omega)] at h
    refine iff_of_true ?_ hi
    rcases List.mem_cons.mp (List.mem_of_getElem? h) with rfl | hmem
    · exact Nat.zero_le _
    · have hbounds := bounds_of_mem_byteBreaks hmem
      rw [length_take_bytes] at hbounds
      omega
  · rw [List.getElem?_append_right (by omega)] at h
    refine iff_of_false ?_ hi
    have hbounds := bounds_of_mem_byteBreaks (List.mem_of_getElem? h)
    omega

/-- Later offsets have later positions. -/
theorem strictMonoOn_key_position :
    StrictMonoOn (fun offset => ((LineIndex.ofText text).position offset).key)
      (Set.Iic (width text)) := by
  intro a ha b hb hlt
  rw [Set.mem_Iic] at ha hb
  obtain ⟨between, hbetween⟩ : ∃ between, (bytes text).take b = (bytes text).take a ++ between := by
    obtain ⟨between, h⟩ := List.take_prefix_take_left (l := bytes text) hlt.le
    exact ⟨between, h.symm⟩
  have hlength := congrArg List.length hbetween
  rw [List.length_append, length_take_bytes, length_take_bytes] at hlength
  simp only [Position.key, position_eq, Prod.Lex.toLex_lt_toLex, hbetween]
  by_cases hfeed : lineFeed ∈ between
  · left
    rw [List.count_append]
    exact Nat.lt_add_of_pos_right (List.count_pos_iff.mpr hfeed)
  · right
    have hstart := (isLastStart_lastStart ((bytes text).take a)).le
    rw [List.count_append, List.count_eq_zero.mpr hfeed, lastStart_append hfeed,
      List.length_append]
    omega

end Index

/-- What stands behind a text is on the line that the line feeds of the text count, and as far on it
as the last line of the text reaches. -/
theorem position_width (front back : Text) :
    (LineIndex.ofText (front ++ back)).position (width front) =
      ⟨front.count '\n', width ((fields '\n' front).getLastD [])⟩ := by
  have htake : (bytes (front ++ back)).take (width front) = bytes front := by
    rw [bytes_append, ← length_bytes, List.take_left]
  have hlast := lastStart_add_width front
  rw [position_eq, htake, lineFeed, count_bytes (by decide), length_bytes]
  congr 1
  omega

/-! ### Exact positions -/

namespace LineIndex

/-- A position is that of the offset `o` among bytes. Its line counts the line feeds in front of the
offset. The lines up to this one are those that start no later than the offset. The start of this
line is where the last line in front of the offset starts, and the column leads from it to the
offset. -/
structure Locates (index : LineIndex) (bs : List UInt8) (o : Nat) (p : Position) : Prop where
  line_eq : p.line = (bs.take o).count lineFeed
  start_le_iff : ∀ i start, index.starts[i]? = some start → (start ≤ o ↔ i ≤ p.line)
  start_add_column : ∃ start, index.starts[p.line]? = some start ∧
    IsLastStart (bs.take o) start ∧ start + p.column = o

/-- An index gives exact positions. All its numbers have 32 bits, its lines start in order, it
locates every offset, where those past the end count as the end, and later offsets up to the end
have later positions. -/
structure Exact (index : LineIndex) (bs : List UInt8) : Prop where
  length_eq : index.length = bs.length
  fits : ∀ n ∈ index.length :: index.starts, n < Span.offsetRange
  sorted : index.starts.Pairwise (· < ·)
  locates : ∀ offset, index.Locates bs (min offset bs.length) (index.position offset)
  position_fits : ∀ offset, (index.position offset).line < Span.offsetRange ∧
    (index.position offset).column < Span.offsetRange
  strictMonoOn : StrictMonoOn (fun offset => (index.position offset).key) (Set.Iic bs.length)
  injOn : Set.InjOn index.position (Set.Iic bs.length)

end LineIndex

theorem locates_position (text : Text) (offset : Nat) :
    (LineIndex.ofText text).Locates (bytes text) (min offset (width text))
      ((LineIndex.ofText text).position offset) := by
  have hlast := isLastStart_lastStart ((bytes text).take offset)
  have hle := hlast.le
  refine ⟨?_, fun i start h => start_le_iff text offset h, _, getElem?_starts_line text offset,
    ?_, ?_⟩
  · rw [take_min_bytes, position_eq]
  · rwa [take_min_bytes]
  · rw [length_take_bytes] at hle
    simp only [position_eq, length_take_bytes]
    omega

/-- The line index of a text of less than 2³² bytes gives exact positions. -/
theorem ofText_exact {text : Text} (hshort : width text < Span.offsetRange) :
    (LineIndex.ofText text).Exact (bytes text) where
  length_eq := (length_bytes text).symm
  fits := by
    rw [starts_ofText, List.forall_mem_cons, List.forall_mem_cons]
    refine ⟨hshort, Nat.zero_lt_of_lt hshort, fun position hposition => ?_⟩
    have hbounds := bounds_of_mem_byteBreaks hposition
    rw [length_bytes] at hbounds
    omega
  sorted := by
    rw [starts_ofText]
    exact pairwise_byteBreaks 0 (bytes text)
  locates offset := by
    rw [length_bytes]
    exact locates_position text offset
  position_fits offset := by
    have hcount := List.count_le_length (a := lineFeed) (l := (bytes text).take offset)
    rw [length_take_bytes] at hcount
    simp only [position_eq, length_take_bytes]
    omega
  strictMonoOn := by
    rw [length_bytes]
    exact strictMonoOn_key_position text
  injOn := by
    rw [length_bytes]
    intro a ha b hb hequal
    exact (strictMonoOn_key_position text).injOn ha hb (congrArg Position.key hequal)

/-- Offsets inside of a character, at a line feed, on an empty line and past the end. -/
theorem ofText_exact_euro :
    width "a\n\n€\n" < Span.offsetRange ∧
    [1, 2, 3, 4, 6, 7, 99].map (LineIndex.ofText "a\n\n€\n").position =
      [⟨0, 1⟩, ⟨1, 0⟩, ⟨2, 0⟩, ⟨2, 1⟩, ⟨2, 3⟩, ⟨3, 0⟩, ⟨3, 0⟩] ∧
    (LineIndex.ofText "a\n\n€\n").Exact (bytes "a\n\n€\n") :=
  ⟨by decide, by decide, ofText_exact (by decide)⟩

end Phrasebook.Text
