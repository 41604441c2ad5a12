import Phrasebook.Text.Basic

/-!
# Lines and columns

A line index remembers where each line of a text starts, and turns a byte offset into a line and
a column. Offsets past the end count as the end.
-/

namespace Phrasebook.Text

/-- A place in a text: the line, and the byte column inside it, both counted from zero. -/
structure Position where
  line : Nat
  column : Nat
  deriving DecidableEq, Repr

/-- Line and column as people count them, from one. -/
def Position.display (p : Position) : Nat × Nat := (p.line + 1, p.column + 1)

/-- Where the lines of a text start, and how long the text is. -/
structure LineIndex where
  /-- Byte offsets of the first characters of all lines after the first one. -/
  breaks : List Nat
  /-- The number of bytes of the text. -/
  length : Nat
  deriving DecidableEq, Repr

/-- The byte offsets right after the line feeds of a text that starts at `offset`. -/
def lineBreaks (offset : Nat) : Text → List Nat
  | [] => []
  | c :: rest =>
    let next := offset + c.utf8Size
    if c = '\n' then next :: lineBreaks next rest else lineBreaks next rest

/-- The line index of a text. -/
def LineIndex.ofText (text : Text) : LineIndex :=
  ⟨lineBreaks 0 text, width text⟩

/-- The line and the column of a byte offset. -/
def LineIndex.position (index : LineIndex) (offset : Nat) : Position :=
  let offset := min offset index.length
  let passed := index.breaks.takeWhile (· ≤ offset)
  ⟨passed.length, offset - passed.getLast?.getD 0⟩

end Phrasebook.Text
