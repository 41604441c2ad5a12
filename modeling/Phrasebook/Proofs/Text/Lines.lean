import Phrasebook.Proofs.Text.Fields
import Mathlib.Algebra.Order.BigOperators.Group.List
import Mathlib.Algebra.Order.Group.Nat
import Mathlib.Data.List.Basic

/-!
# Printed lines

A line that is printed ends with a line feed. So printed lines are read back as the fields of the
printed text, all but the empty one after the last line feed, and there are as many of them as were
printed unless one of them holds a line feed of its own.
-/

namespace Phrasebook.Text

variable {separator : Char} {text : Text}

/-- The lines of a text, each of which ends with a line feed. A text that does not end with a line
feed has no lines. -/
def lines? (text : Text) : Option (List Text) :=
  let parts := fields '\n' text
  if parts.getLast? = some [] then some parts.dropLast else none

theorem lines?_of_fields {lines : List Text} (h : fields '\n' text = lines ++ [[]]) :
    lines? text = some lines := by
  simp [lines?, h]

/-- A printed line can hold line feeds of its own. Then it is read back as several lines. -/
theorem lines?_flatMap (texts : List Text) :
    lines? (texts.flatMap fun text => text ++ ['\n']) = some (texts.flatMap (fields '\n')) := by
  refine lines?_of_fields ?_
  induction texts with
  | nil => rfl
  | cons text rest ih =>
    rw [List.flatMap_cons, List.append_assoc, List.singleton_append, fields_append_cons, ih,
      List.flatMap_cons, List.append_assoc]

/-- Printed lines without line feeds are read back as they are. -/
theorem lines?_flatMap_of_forall {texts : List Text} (h : ∀ text ∈ texts, '\n' ∉ text) :
    lines? (texts.flatMap fun text => text ++ ['\n']) = some texts := by
  have hfields : texts.flatMap (fields '\n') = texts.flatMap fun text => [text] :=
    List.flatMap_congr fun text htext => fields_of_not_mem (h text htext)
  rw [lines?_flatMap, hfields, List.flatMap_singleton']

/-- There are as many lines as were printed only if none of them holds a line feed. -/
theorem length_flatMap_fields_eq_iff {texts : List Text} :
    (texts.flatMap (fields separator)).length = texts.length ↔
      ∀ text ∈ texts, separator ∉ text := by
  have hlength : (texts.flatMap (fields separator)).length =
      (texts.map (List.count separator)).sum + texts.length := by
    induction texts with
    | nil => rfl
    | cons text rest ih =>
      rw [List.flatMap_cons, List.length_append, length_fields, ih, List.map_cons, List.sum_cons,
        List.length_cons]
      omega
  rw [hlength, Nat.add_eq_right, List.sum_eq_zero_iff]
  simp [List.count_eq_zero]

end Phrasebook.Text
