import Phrasebook.Proofs.Template.Meaning

/-!
# Variables of templates

The variables of a pattern are its occurrences of variables, each once, in the order of the first
occurrences. The template literal of a pattern without variables reads no name.
-/

namespace Phrasebook

namespace Pattern

mutual
/-- The variables of a node. A select has its own variable, those of its cases in their order, and
those of its fallback. -/
def nodeOccurrences : Node → List Text
  | .text _ _ => []
  | .placeholder name _ => [name]
  | .select name cases fallback _ => name :: (caseOccurrences cases ++ occurrences fallback)

/-- The variables of nodes, with repetitions. -/
def occurrences : List Node → List Text
  | [] => []
  | node :: rest => nodeOccurrences node ++ occurrences rest

/-- The variables of the bodies of cases, with repetitions. -/
def caseOccurrences : List Case → List Text
  | [] => []
  | ⟨_, body, _⟩ :: rest => occurrences body ++ caseOccurrences rest
end

end Pattern

namespace Template

open Pattern Script

/-- Adding names one after the other keeps the first occurrence of each. -/
theorem foldl_addName (names more : List Text) :
    more.foldl addName names = names ++ (more.filter (· ∉ names)).eraseDups := by
  induction more generalizing names with
  | nil => simp
  | cons name more ih =>
    rw [List.foldl_cons, addName]
    split_ifs with h
    · rw [ih, List.filter_cons_of_neg (by simpa using h)]
    · rw [ih, List.filter_cons_of_pos (by simpa using h), List.eraseDups_cons, List.filter_filter,
        List.append_assoc, List.singleton_append]
      congr 4
      funext other
      rw [Bool.eq_iff_iff]
      simp [and_comm]

theorem foldl_addName_nil (more : List Text) : more.foldl addName [] = more.eraseDups := by
  simp [foldl_addName]

theorem eraseDups_concat (names : List Text) (name : Text) :
    (names ++ [name]).eraseDups = addName names.eraseDups name := by
  rw [← foldl_addName_nil, ← foldl_addName_nil, List.foldl_append, List.foldl_cons, List.foldl_nil]

mutual
theorem addNodeNames_eq (node : Node) (names : List Text) :
    addNodeNames node names = (nodeOccurrences node).foldl addName names := by
  match node with
  | .text _ _ => rfl
  | .placeholder _ _ => rfl
  | .select name cases fallback _ =>
    rw [addNodeNames, nodeOccurrences, List.foldl_cons, List.foldl_append, addCaseNames_eq,
      addBodyNames_eq]

theorem addBodyNames_eq (nodes : List Node) (names : List Text) :
    addBodyNames nodes names = (occurrences nodes).foldl addName names := by
  match nodes with
  | [] => rfl
  | node :: rest =>
    rw [addBodyNames, occurrences, List.foldl_append, addNodeNames_eq node,
      addBodyNames_eq rest]

theorem addCaseNames_eq (cases : List Case) (names : List Text) :
    addCaseNames cases names = (caseOccurrences cases).foldl addName names := by
  match cases with
  | [] => rfl
  | ⟨_, body, _⟩ :: rest =>
    rw [addCaseNames, caseOccurrences, List.foldl_append, addBodyNames_eq body,
      addCaseNames_eq rest]
end

/-- The variables of a pattern are its occurrences of variables without repetitions. -/
theorem names_eq (nodes : List Node) : names nodes = (occurrences nodes).eraseDups := by
  rw [names, addBodyNames_eq, foldl_addName_nil]

/-! ### Names that are read -/

theorem of_reads_recordField {x name : Text} {optional : Bool}
    (h : (recordField optional name).reads x = true) : x = ['v'] := by
  simpa [recordField, Expr.reads] using h

mutual
/-- A template literal reads the record `v` and nothing else, and only if it has variables. -/
theorem of_reads_bodyParts {x : Text} (nodes : List Node) (h : (bodyParts nodes).reads x = true) :
    x = ['v'] ∧ occurrences nodes ≠ [] := by
  match nodes with
  | [] => simp [bodyParts, Parts.reads] at h
  | .text _ _ :: rest =>
    rw [bodyParts, nodeParts, Parts.reads_prepend] at h
    simpa [occurrences, nodeOccurrences] using of_reads_bodyParts rest h
  | .placeholder name _ :: rest =>
    refine ⟨?_, by simp [occurrences, nodeOccurrences]⟩
    simp only [bodyParts, nodeParts, Parts.reads, Expr.reads, Bool.or_eq_true, Bool.or_false] at h
    rcases h with h | h
    · exact of_reads_recordField h
    · exact (of_reads_bodyParts rest h).1
  | .select name cases fallback _ :: rest =>
    refine ⟨?_, by simp [occurrences, nodeOccurrences]⟩
    simp only [bodyParts, nodeParts, Parts.reads, Bool.or_eq_true] at h
    rcases h with h | h
    · refine of_reads_casesExpr cases ?_ h
      intro h
      exact (of_reads_bodyParts fallback h).1
    · exact (of_reads_bodyParts rest h).1

theorem of_reads_casesExpr {x name : Text} {fallback : Expr} (cases : List Case)
    (hfallback : fallback.reads x = true → x = ['v'])
    (h : (casesExpr name fallback cases).reads x = true) : x = ['v'] := by
  match cases with
  | [] => exact hfallback h
  | ⟨label, body, _⟩ :: rest =>
    simp only [casesExpr, Expr.reads, Parts.reads, Bool.or_eq_true, Bool.or_false] at h
    rcases h with (h | h) | h
    · exact of_reads_recordField h
    · exact (of_reads_bodyParts body h).1
    · exact of_reads_casesExpr rest hfallback h
end

end Template

end Phrasebook
