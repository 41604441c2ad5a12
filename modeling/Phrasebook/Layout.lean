import Phrasebook.Text.Basic

/-!
# Layout of generated code

Generated code is described by a list of items: lines, which are indented by the current level,
verbatim text, line ends, and changes of the level. `Layout.render` writes the items out.
-/

namespace Phrasebook

/-- One item of a layout. -/
inductive Layout.Item where
  /-- A line at the current level of indentation. -/
  | line (text : Text)
  /-- Text that is copied as it is. -/
  | verbatim (text : Text)
  /-- The end of a line. -/
  | newline
  /-- One level more from here on. -/
  | indent
  /-- One level less from here on; level zero is the least. -/
  | dedent
  deriving DecidableEq, Repr

/-- A layout is a list of items. -/
abbrev Layout := List Layout.Item

namespace Layout

/-- The blanks in front of a line at a level. -/
def indentation (level : Nat) : Text := List.replicate (4 * level) ' '

/-- The text of a layout that starts at a level of indentation. An empty line is not indented. -/
def renderAt (level : Nat) : Layout → Text
  | [] => []
  | .line text :: rest =>
    (if text.isEmpty then [] else indentation level ++ text) ++ '\n' :: renderAt level rest
  | .verbatim text :: rest => text ++ renderAt level rest
  | .newline :: rest => '\n' :: renderAt level rest
  | .indent :: rest => renderAt (level + 1) rest
  | .dedent :: rest => renderAt (level - 1) rest

/-- The text of a layout. -/
def render (layout : Layout) : Text := renderAt 0 layout

/-- A layout one level further in. -/
def nested (inner : Layout) : Layout := .indent :: inner ++ [.dedent]

/-! ### Lines of layouts -/

/-- The lines of a layout that starts at a level of indentation. -/
def linesAt (level : Nat) : Layout → List Text
  | [] => []
  | .line text :: rest =>
    (if text.isEmpty then [] else indentation level ++ text) :: linesAt level rest
  | .verbatim _ :: rest => linesAt level rest
  | .newline :: rest => [] :: linesAt level rest
  | .indent :: rest => linesAt (level + 1) rest
  | .dedent :: rest => linesAt (level - 1) rest

/-- An item ends a line that it writes. -/
def Item.endsLine : Item → Bool
  | .verbatim _ => false
  | _ => true

/-- A layout without verbatim texts is written line by line. -/
theorem renderAt_eq_flatMap {layout : Layout} (h : layout.all Item.endsLine = true) (level : Nat) :
    renderAt level layout = (linesAt level layout).flatMap fun text => text ++ ['\n'] := by
  induction layout generalizing level with
  | nil => rfl
  | cons item rest ih =>
    rw [List.all_cons, Bool.and_eq_true] at h
    obtain ⟨hitem, hrest⟩ := h
    cases item with
    | line text => simp [renderAt, linesAt, ih hrest]
    | verbatim text => exact absurd hitem Bool.false_ne_true
    | newline => simp [renderAt, linesAt, ih hrest]
    | indent => exact ih hrest (level + 1)
    | dedent => exact ih hrest (level - 1)

end Layout

end Phrasebook
