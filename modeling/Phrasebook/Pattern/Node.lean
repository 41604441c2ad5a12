import Phrasebook.Span

/-!
# Nodes of a pattern

A pattern that has been read is a list of nodes: texts, variables, and selects, which choose among
labelled cases by the value of a variable and fall back to a default body.
-/

namespace Phrasebook.Pattern

mutual
/-- A node of a pattern. Its span includes the braces of the group it was read from. -/
inductive Node where
  /-- Text that stands for itself. -/
  | text (value : Text) (span : Span)
  /-- A placeholder for the value of a variable. -/
  | placeholder (name : Text) (span : Span)
  /-- A choice by the value of a variable: the first case with that label, else the fallback. -/
  | select (name : Text) (cases : List Case) (fallback : List Node) (span : Span)

/-- A labelled case of a select. Its span covers the label and the body with its braces. -/
structure Case where
  label : Text
  body : List Node
  span : Span
end

/-! ### Equality of nodes -/

mutual
/-- Nodes can be compared. -/
def decEqNode : (a b : Node) → Decidable (a = b)
  | .text a s, .text b t => decidable_of_decidable_of_iff (p := a = b ∧ s = t) (by simp)
  | .placeholder a s, .placeholder b t =>
    decidable_of_decidable_of_iff (p := a = b ∧ s = t) (by simp)
  | .select a cases fallback s, .select b cases' fallback' t =>
    have := decEqCases cases cases'
    have := decEqNodes fallback fallback'
    decidable_of_decidable_of_iff
      (p := a = b ∧ cases = cases' ∧ fallback = fallback' ∧ s = t) (by simp)
  | .text _ _, .placeholder _ _ => isFalse nofun
  | .text _ _, .select _ _ _ _ => isFalse nofun
  | .placeholder _ _, .text _ _ => isFalse nofun
  | .placeholder _ _, .select _ _ _ _ => isFalse nofun
  | .select _ _ _ _, .text _ _ => isFalse nofun
  | .select _ _ _ _, .placeholder _ _ => isFalse nofun

/-- Lists of nodes can be compared. -/
def decEqNodes : (a b : List Node) → Decidable (a = b)
  | [], [] => isTrue rfl
  | a :: as, b :: bs =>
    have := decEqNode a b
    have := decEqNodes as bs
    decidable_of_decidable_of_iff (p := a = b ∧ as = bs) (by simp)
  | [], _ :: _ => isFalse nofun
  | _ :: _, [] => isFalse nofun

/-- Lists of cases can be compared. -/
def decEqCases : (a b : List Case) → Decidable (a = b)
  | [], [] => isTrue rfl
  | ⟨a, body, s⟩ :: as, ⟨b, body', t⟩ :: bs =>
    have := decEqNodes body body'
    have := decEqCases as bs
    decidable_of_decidable_of_iff (p := (a = b ∧ body = body' ∧ s = t) ∧ as = bs) (by simp)
  | [], _ :: _ => isFalse nofun
  | _ :: _, [] => isFalse nofun
end

instance : DecidableEq Node := decEqNode

/-! ### Selects -/

/-- The label that marks the fallback of a select. -/
def other : Text := "other"

namespace Node

/-- Where a node stands in its pattern. -/
def span : Node → Span
  | text _ s => s
  | placeholder _ s => s
  | select _ _ _ s => s

/-- Whether a node is a text without characters. -/
def isEmptyText : Node → Bool
  | text value _ => value.isEmpty
  | placeholder _ _ => false
  | select _ _ _ _ => false

end Node

/-- The body of a select without a fallback of its own: one empty text where the select ends. -/
def emptyBody (span : Span) : List Node := [.text [] (.point span.stop)]

/-- A select on its own: what it tests, its cases, its fallback and where it stands. -/
structure Selection where
  name : Text
  cases : List Case
  fallback : List Node
  span : Span

namespace Selection

/-- The first case with a given label. -/
def find? (s : Selection) (label : Text) : Option Case :=
  s.cases.find? fun c => c.label == label

/-- The node of a selection that stands at `span`. -/
def nodeAt (s : Selection) (span : Span) : Node := .select s.name s.cases s.fallback span

end Selection

end Phrasebook.Pattern
