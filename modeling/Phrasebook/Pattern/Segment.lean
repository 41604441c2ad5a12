import Phrasebook.Span

/-!
# Segments of a pattern

A pattern is cut into segments at its outermost braces: literal texts, and groups with their
content. Every opening brace counts one level up and every closing brace one level down, so a
closing brace that was never opened leaves the count below zero, and the braces after it belong to
the literal text until an opening brace brings the count back to zero.
-/

namespace Phrasebook.Pattern

/-- A piece of a text outside all groups, or a whole group. -/
inductive Segment where
  /-- Text outside all groups. -/
  | literal (text : Text) (span : Span)
  /-- A group. The content is without the outer braces and the span includes them. -/
  | group (content : Text) (span : Span)
  deriving DecidableEq, Repr

/-- The segments of a text, and its braces that do not match. -/
structure Scan where
  segments : List Segment := []
  /-- The span from a brace that is never closed to the end of the text. -/
  unterminated : Option Span := none
  /-- The offsets of the closing braces that were never opened. -/
  strays : List Nat := []
  deriving DecidableEq, Repr

/-- The state of a scan between two characters. -/
structure Scan.State where
  /-- Opening braces minus closing braces so far. -/
  depth : Int := 0
  /-- The least depth so far. -/
  lowest : Int := 0
  /-- Where the current segment starts. -/
  start : Nat := 0
  /-- Where the next character stands. -/
  here : Nat := 0
  /-- The characters of the current segment so far, last one first, without the outer brace. -/
  held : Text := []

namespace Scan

/-- The literal that ends here, if it has any characters. -/
def State.literal (s : State) : List Segment :=
  if s.held.isEmpty then [] else [.literal s.held.reverse ⟨s.start, s.here⟩]

/-- The scan with a stray closing brace in front. -/
def withStray (scan : Scan) (offset : Nat) : Scan :=
  { scan with strays := offset :: scan.strays }

/-- The scan with segments in front. -/
def withSegments (scan : Scan) (segments : List Segment) : Scan :=
  { scan with segments := segments ++ scan.segments }

/-- The scan of the rest of a text. -/
def run (s : State) : Text → Scan
  | [] =>
    if 0 < s.depth then { unterminated := some ⟨s.start, s.here⟩ } else { segments := s.literal }
  | c :: rest =>
    let next := s.here + c.utf8Size
    if c = '{' then
      if s.depth = 0 then
        (run { depth := 1, lowest := s.lowest, start := s.here, here := next } rest).withSegments
          s.literal
      else run { s with depth := s.depth + 1, here := next, held := c :: s.held } rest
    else if c = '}' then
      let depth := s.depth - 1
      if depth = 0 then
        (run { lowest := s.lowest, start := next, here := next } rest).withSegments
          [.group s.held.reverse ⟨s.start, next⟩]
      else if depth < s.lowest then
        (run { s with depth, lowest := depth, here := next, held := c :: s.held } rest).withStray
          s.here
      else run { s with depth, here := next, held := c :: s.held } rest
    else run { s with here := next, held := c :: s.held } rest

/-- The scan of a text. Offsets count from its start. -/
def ofText (text : Text) : Scan := run {} text

end Scan

end Phrasebook.Pattern
