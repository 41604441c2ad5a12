import Phrasebook.Pattern.Node

/-!
# Rendering

What a pattern stands for once its variables have values: texts stand for themselves, placeholders
for the values of their variables, and selects for the body of the first case that is labelled with
the value of their variable, or for their fallback if there is none. The values choose among the
texts and placeholders of a pattern, and a placeholder without a value is the only place where two
ways to render a pattern can differ.
-/

namespace Phrasebook.Pattern

/-- The values of variables, as far as they are there. -/
abbrev Values := Text → Option Text

mutual
/-- The text of a node. A variable without a value gives the empty text. -/
def renderNode (values : Values) : Node → Text
  | .text value _ => value
  | .placeholder name _ => (values name).getD []
  | .select name cases fallback _ =>
    (renderCases values (values name) cases).getD (render values fallback)

/-- The text of a list of nodes. -/
def render (values : Values) : List Node → Text
  | [] => []
  | node :: rest => renderNode values node ++ render values rest

/-- The text of the first case with a given label. -/
def renderCases (values : Values) (label : Option Text) : List Case → Option Text
  | [] => none
  | ⟨own, body, _⟩ :: rest =>
    if label = some own then some (render values body) else renderCases values label rest
end

theorem renderCases_eq (values : Values) (label : Option Text) (cases : List Case) :
    renderCases values label cases =
      (cases.find? fun c => label = some c.label).map fun c => render values c.body := by
  induction cases with
  | nil => rfl
  | cons first rest ih =>
    obtain ⟨own, body, span⟩ := first
    by_cases h : label = some own
    · simp [renderCases, h]
    · simp [renderCases, h, ih]

/-- A select renders the body of the first case that is labelled with the value of its variable,
and else its fallback. -/
theorem renderNode_select (values : Values) (s : Selection) :
    renderNode values (s.nodeAt s.span) =
      match (values s.name).bind s.find? with
      | some c => render values c.body
      | none => render values s.fallback := by
  have hfind : (s.cases.find? fun c => values s.name = some c.label) =
      (values s.name).bind s.find? := by
    cases values s.name with
    | none => simp
    | some value =>
      rw [Option.bind_some, Selection.find?]
      congr 1
      funext c
      rw [Bool.eq_iff_iff, beq_iff_eq, decide_eq_true_iff, Option.some_inj]
      exact eq_comm
  rw [Selection.nodeAt, renderNode, renderCases_eq, hfind]
  cases (values s.name).bind s.find? <;> rfl

/-! ### Placeholders without values -/

mutual
/-- The texts and placeholders of a node that are chosen by values. -/
def chosenNode (values : Values) : Node → List Node
  | .text value span => [.text value span]
  | .placeholder name span => [.placeholder name span]
  | .select name cases fallback _ =>
    (chosenCases values (values name) cases).getD (chosen values fallback)

/-- The texts and placeholders of nodes that are chosen by values. -/
def chosen (values : Values) : List Node → List Node
  | [] => []
  | node :: rest => chosenNode values node ++ chosen values rest

/-- The texts and placeholders that are chosen in the first case with a given label. -/
def chosenCases (values : Values) (label : Option Text) : List Case → Option (List Node)
  | [] => none
  | ⟨own, body, _⟩ :: rest =>
    if label = some own then some (chosen values body) else chosenCases values label rest
end

/-- The text of a text or a placeholder, with a text for each variable that has no value. -/
def Node.textWith (absent : Text → Text) (values : Values) : Node → Text
  | .text value _ => value
  | .placeholder name _ => (values name).getD (absent name)
  | .select _ _ _ _ => []

/-- The text of a list of nodes, with a text for each variable that has no value. -/
def renderWith (absent : Text → Text) (values : Values) (nodes : List Node) : Text :=
  (chosen values nodes).flatMap (Node.textWith absent values)

theorem renderWith_cons (absent : Text → Text) (values : Values) (node : Node)
    (nodes : List Node) :
    renderWith absent values (node :: nodes) =
      (chosenNode values node).flatMap (Node.textWith absent values) ++
        renderWith absent values nodes := by
  rw [renderWith, chosen, List.flatMap_append]
  rfl

mutual
/-- In a rendering, variables without values have the empty text. -/
theorem render_eq_renderWith (values : Values) (nodes : List Node) :
    render values nodes = renderWith (fun _ => []) values nodes := by
  match nodes with
  | [] => rfl
  | .text value _ :: rest =>
    rw [render, renderNode, renderWith_cons, render_eq_renderWith values rest]
    simp [chosenNode, Node.textWith]
  | .placeholder name _ :: rest =>
    rw [render, renderNode, renderWith_cons, render_eq_renderWith values rest]
    simp [chosenNode, Node.textWith]
  | .select name cases fallback _ :: rest =>
    rw [render, renderNode, renderWith_cons, render_eq_renderWith values rest,
      renderCases_eq_map values (values name) cases, render_eq_renderWith values fallback,
      chosenNode]
    cases chosenCases values (values name) cases <;> rfl

theorem renderCases_eq_map (values : Values) (label : Option Text) (cases : List Case) :
    renderCases values label cases = (chosenCases values label cases).map
      (List.flatMap (Node.textWith (fun _ => []) values)) := by
  match cases with
  | [] => rfl
  | ⟨own, body, _⟩ :: rest =>
    rw [renderCases, chosenCases, render_eq_renderWith values body,
      renderCases_eq_map values label rest]
    by_cases h : label = some own
    · rw [if_pos h, if_pos h]
      rfl
    · rw [if_neg h, if_neg h]
end

section Absent

variable {absent : Text → Text} {values : Values}

theorem length_flatMap_textWith_le (absent : Text → Text) (values : Values) (nodes : List Node) :
    (nodes.flatMap (Node.textWith (fun _ => []) values)).length ≤
      (nodes.flatMap (Node.textWith absent values)).length := by
  induction nodes with
  | nil => exact Nat.le_refl _
  | cons node nodes ih =>
    have hnode : (node.textWith (fun _ => []) values).length ≤
        (node.textWith absent values).length := by
      cases node with
      | placeholder name span => cases h : values name <;> simp [Node.textWith, h]
      | _ => exact Nat.le_refl _
    simp only [List.flatMap_cons, List.length_append]
    omega

/-- A text for a variable without a value shows, unless it is empty or the variable does not come
up in a placeholder. -/
theorem renderWith_eq_render_iff {nodes : List Node} :
    renderWith absent values nodes = render values nodes ↔
      ∀ name span, .placeholder name span ∈ chosen values nodes → values name = none →
        absent name = [] := by
  rw [render_eq_renderWith, renderWith, renderWith]
  induction chosen values nodes with
  | nil => simp
  | cons node chosen ih =>
    have hlength := length_flatMap_textWith_le absent values chosen
    have hnode : node.textWith absent values = node.textWith (fun _ => []) values ↔
        ∀ name span, .placeholder name span = node → values name = none → absent name = [] := by
      cases node with
      | placeholder name span => cases h : values name <;> simp [Node.textWith, h]
      | _ => simp [Node.textWith]
    have hfirst := length_flatMap_textWith_le absent values [node]
    simp only [List.flatMap_cons, List.flatMap_nil, List.append_nil] at hfirst
    have hboth : node.textWith absent values ++ chosen.flatMap (Node.textWith absent values) =
          node.textWith (fun _ => []) values ++
            chosen.flatMap (Node.textWith (fun _ => []) values) ↔
        node.textWith absent values = node.textWith (fun _ => []) values ∧
          chosen.flatMap (Node.textWith absent values) =
            chosen.flatMap (Node.textWith (fun _ => []) values) := by
      refine ⟨fun h => ?_, fun h => by rw [h.1, h.2]⟩
      have hsum := congrArg List.length h
      rw [List.length_append, List.length_append] at hsum
      exact List.append_inj h (by omega)
    rw [List.flatMap_cons, List.flatMap_cons, hboth, hnode, ih]
    simp only [List.mem_cons, or_imp, forall_and]

end Absent

end Phrasebook.Pattern
