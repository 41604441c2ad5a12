import Phrasebook.Text.Basic

/-!
# Spans

A span is a half-open range of byte offsets into a text. Offsets are 32-bit numbers: the checked
operations refuse to leave that range, and `Span.ofRange` cuts wider numbers down to it.
-/

namespace Phrasebook

/-- A half-open range of byte offsets. -/
structure Span where
  /-- Offset of the first byte. -/
  start : Nat
  /-- Offset of the byte after the last one. -/
  stop : Nat
  deriving DecidableEq, Repr, Inhabited

namespace Span

/-- The number of values that an offset can take. -/
def offsetRange : Nat := Nat.pow 2 32

/-- The empty span at an offset. -/
def point (offset : Nat) : Span := ⟨offset, offset⟩

/-- The span of a range of wide offsets, each cut down to its low 32 bits. -/
def ofRange (start stop : Nat) : Span := ⟨start % offsetRange, stop % offsetRange⟩

/-- The span moved right by `distance` bytes. -/
def shift (s : Span) (distance : Nat) : Span := ⟨s.start + distance, s.stop + distance⟩

/-- The span moved right by `distance` bytes, unless an end leaves the range of offsets. -/
def shift? (s : Span) (distance : Nat) : Option Span :=
  if s.start + distance < offsetRange ∧ s.stop + distance < offsetRange then
    some (s.shift distance)
  else none

/-- The smallest span that covers both. -/
def cover (a b : Span) : Span := ⟨min a.start b.start, max a.stop b.stop⟩

/-- The text under a span. There is none if the span is reversed, runs past the end of the text,
or cuts a character. -/
def slice? (s : Span) (text : Text) : Option Text :=
  if s.start ≤ s.stop then
    (Text.dropBytes s.start text).bind (Text.takeBytes (s.stop - s.start))
  else none

/-- The span between two texts covers exactly what stands between them. -/
theorem slice?_append (a b c : Text) :
    slice? ⟨Text.width a, Text.width a + Text.width b⟩ (a ++ (b ++ c)) = some b := by
  simp [slice?]

theorem ofRange_eq {start stop : Nat} (hle : start ≤ stop) (hstop : stop < offsetRange) :
    Span.ofRange start stop = ⟨start, stop⟩ := by
  rw [Span.ofRange, Nat.mod_eq_of_lt (Nat.lt_of_le_of_lt hle hstop), Nat.mod_eq_of_lt hstop]

theorem shift_from (offset length base : Nat) :
    Span.shift ⟨offset, offset + length⟩ base = ⟨base + offset, base + offset + length⟩ := by
  rw [Span.shift, Nat.add_comm offset base, Nat.add_right_comm, Nat.add_comm offset base]

theorem shift_add (s : Span) (base distance : Nat) :
    s.shift (base + distance) = (s.shift base).shift distance := by
  simp [Span.shift, Nat.add_assoc]

/-- Two spans next to each other are covered without a gap. -/
theorem cover_adjacent (offset first second : Nat) :
    Span.cover ⟨offset, offset + first⟩ ⟨offset + first, offset + first + second⟩ =
      ⟨offset, offset + (first + second)⟩ := by
  rw [Span.cover, Nat.min_eq_left (Nat.le_add_right _ _), Nat.max_eq_right (Nat.le_add_right _ _),
    Nat.add_assoc]

end Span

end Phrasebook
