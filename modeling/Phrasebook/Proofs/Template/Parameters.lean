import Phrasebook.Proofs.Pattern.Places
import Phrasebook.Proofs.Template.Variables

/-!
# Parameters are what templates read

The record that a caller has to pass has a field for each variable of the pattern and no other.
Fields that are not among them have no influence on what the template literal evaluates to, and
where there is no field at all, the literal is nothing but text.
-/

namespace Phrasebook

namespace Pattern

open Text

/-- The variable that a node reads by itself. -/
def Node.reads? : Node → Option Text
  | .text _ _ => none
  | .placeholder name _ => some name
  | .select name _ _ _ => some name

theorem Node.reads?_eq_none_iff {n : Node} :
    n.reads? = none ↔ ∃ value span, n = .text value span := by
  cases n <;> simp [Node.reads?]

/-! ### Occurrences at any depth -/

/-- What stands among nodes stands wherever those nodes stand. -/
theorem Within.trans {nodes inner : List Node} {n : Node} (h : Within inner n)
    (hinner : ∀ m ∈ inner, Within nodes m) : Within nodes n := by
  induction h with
  | top hmem => exact hinner _ hmem
  | inCase _ hcase hmem ih => exact .inCase ih hcase hmem
  | inFallback _ hmem ih => exact .inFallback ih hmem

theorem mem_caseOccurrences {cases : List Case} {name : Text} :
    name ∈ caseOccurrences cases ↔ ∃ c ∈ cases, name ∈ occurrences c.body := by
  induction cases with
  | nil => simp [caseOccurrences]
  | cons c cases ih =>
    obtain ⟨label, body, span⟩ := c
    simp [caseOccurrences, ih]

theorem mem_occurrences {nodes : List Node} {name : Text} :
    name ∈ occurrences nodes ↔ ∃ n ∈ nodes, name ∈ nodeOccurrences n := by
  induction nodes with
  | nil => simp [occurrences]
  | cons n nodes ih => simp [occurrences, ih]

/-- The variables inside of a node are among those of the nodes around it. -/
theorem Within.nodeOccurrences_subset {nodes : List Node} {n : Node} (h : Within nodes n) :
    nodeOccurrences n ⊆ occurrences nodes := by
  induction h with
  | top hmem => exact fun name hname => mem_occurrences.mpr ⟨_, hmem, hname⟩
  | inCase _ hcase hmem ih =>
    intro name hname
    have hbody := mem_occurrences.mpr ⟨_, hmem, hname⟩
    have hcases := mem_caseOccurrences.mpr ⟨_, hcase, hbody⟩
    exact ih (by simp [nodeOccurrences, hcases])
  | inFallback _ hmem ih =>
    intro name hname
    have hfallback := mem_occurrences.mpr ⟨_, hmem, hname⟩
    exact ih (by simp [nodeOccurrences, hfallback])

mutual
theorem exists_within_of_mem_nodeOccurrences (node : Node) {name : Text}
    (h : name ∈ nodeOccurrences node) : ∃ n, Within [node] n ∧ n.reads? = some name := by
  match node with
  | .text _ _ => simp [nodeOccurrences] at h
  | .placeholder own span =>
    obtain rfl := List.mem_singleton.mp h
    exact ⟨_, .top List.mem_cons_self, rfl⟩
  | .select own cases fallback span =>
    have hselect : Within [.select own cases fallback span] (.select own cases fallback span) :=
      .top List.mem_cons_self
    rw [nodeOccurrences, List.mem_cons, List.mem_append] at h
    rcases h with rfl | h | h
    · exact ⟨_, hselect, rfl⟩
    · obtain ⟨c, hc, n, hn, hname⟩ := exists_within_of_mem_caseOccurrences cases h
      exact ⟨n, hn.trans fun m hm => .inCase hselect hc hm, hname⟩
    · obtain ⟨n, hn, hname⟩ := exists_within_of_mem_occurrences fallback h
      exact ⟨n, hn.trans fun m hm => .inFallback hselect hm, hname⟩

theorem exists_within_of_mem_occurrences (nodes : List Node) {name : Text}
    (h : name ∈ occurrences nodes) : ∃ n, Within nodes n ∧ n.reads? = some name := by
  match nodes with
  | [] => simp [occurrences] at h
  | node :: rest =>
    rw [occurrences, List.mem_append] at h
    rcases h with h | h
    · obtain ⟨n, hn, hname⟩ := exists_within_of_mem_nodeOccurrences node h
      exact ⟨n, hn.trans fun m hm => .top (List.mem_singleton.mp hm ▸ List.mem_cons_self), hname⟩
    · obtain ⟨n, hn, hname⟩ := exists_within_of_mem_occurrences rest h
      exact ⟨n, hn.trans fun m hm => .top (List.mem_cons_of_mem _ hm), hname⟩

theorem exists_within_of_mem_caseOccurrences (cases : List Case) {name : Text}
    (h : name ∈ caseOccurrences cases) :
    ∃ c ∈ cases, ∃ n, Within c.body n ∧ n.reads? = some name := by
  match cases with
  | [] => simp [caseOccurrences] at h
  | ⟨label, body, span⟩ :: rest =>
    rw [caseOccurrences, List.mem_append] at h
    rcases h with h | h
    · exact ⟨_, List.mem_cons_self, exists_within_of_mem_occurrences body h⟩
    · obtain ⟨c, hc, hwithin⟩ := exists_within_of_mem_caseOccurrences rest h
      exact ⟨c, List.mem_cons_of_mem _ hc, hwithin⟩
end

/-- The occurrences are the variables of nodes at any depth. -/
theorem mem_occurrences_iff {nodes : List Node} {name : Text} :
    name ∈ occurrences nodes ↔ ∃ n, Within nodes n ∧ n.reads? = some name := by
  refine ⟨exists_within_of_mem_occurrences nodes, ?_⟩
  rintro ⟨n, hwithin, hname⟩
  refine hwithin.nodeOccurrences_subset ?_
  cases n with
  | text value span => simp [Node.reads?] at hname
  | placeholder own span => simpa [Node.reads?, nodeOccurrences, eq_comm] using hname
  | select own cases fallback span =>
    obtain rfl : own = name := by simpa [Node.reads?] using hname
    exact List.mem_cons_self

/-- Nothing occurs in nodes if and only if they are texts, at any depth. -/
theorem occurrences_eq_nil_iff {nodes : List Node} :
    occurrences nodes = [] ↔ ∀ n, Within nodes n → ∃ value span, n = .text value span := by
  rw [List.eq_nil_iff_forall_not_mem]
  constructor
  · intro h n hwithin
    rw [← Node.reads?_eq_none_iff, Option.eq_none_iff_forall_ne_some]
    exact fun name hname => h name (mem_occurrences_iff.mpr ⟨n, hwithin, hname⟩)
  · intro h name hname
    obtain ⟨n, hwithin, hn⟩ := mem_occurrences_iff.mp hname
    obtain ⟨value, span, rfl⟩ := h n hwithin
    simp [Node.reads?] at hn

/-! ### Variables are words -/

/-- A variable that is read from a chunk is a word. -/
theorem ReadFrom.isWord {pattern name : Text} {n : Node} (h : ReadFrom pattern n)
    (hname : n.reads? = some name) : IsWord name := by
  obtain ⟨chunk, offset, -, -, hread, -⟩ := h
  cases chunk with
  | literal text =>
    obtain rfl := List.singleton_inj.mp hread
    simp [Node.reads?] at hname
  | group content =>
    rw [Chunk.read, groupWith] at hread
    split_ifs at hread with hword hheader
    · obtain rfl := List.singleton_inj.mp hread
      obtain rfl : trim content = name := by simpa [Node.reads?] using hname
      simpa [isPaddedWord, IsWord] using hword
    · obtain rfl := List.singleton_inj.mp hread
      obtain ⟨header, hheader⟩ := Option.isSome_iff_exists.mp hheader
      obtain ⟨heading, valid, hheading, -⟩ := Heading.exists_of_read? hheader
      obtain rfl : heading.name = name := by
        simpa [Node.reads?, selectionWith_eq, Selection.nodeAt, hheader, hheading] using hname
      exact ⟨valid.name_ne_nil, valid.name⟩
    · obtain rfl := List.singleton_inj.mp hread
      simp [Node.reads?] at hname

/-- The variables of a pattern that was read are words. -/
theorem isWord_of_mem_occurrences {pattern name : Text}
    (h : name ∈ occurrences (parse pattern).nodes) : IsWord name := by
  obtain ⟨n, hwithin, hname⟩ := mem_occurrences_iff.mp h
  rcases hwithin.origin with hread | hmissing
  · exact hread.isWord hname
  · obtain ⟨span, rfl⟩ := hmissing.eq_text
    simp [Node.reads?] at hname

/-! ### Values of the variables -/

section Agreement

variable {absent : Text → Text} {values values' : Values}

mutual
/-- A rendering depends on the values of the occurrences only. -/
theorem renderWith_congr (nodes : List Node)
    (h : ∀ name ∈ occurrences nodes, values name = values' name) :
    renderWith absent values nodes = renderWith absent values' nodes := by
  match nodes with
  | [] => rfl
  | node :: rest =>
    have hnode : ∀ name ∈ nodeOccurrences node, values name = values' name :=
      fun name hname => h name (List.mem_append_left _ hname)
    have hrest := renderWith_congr rest fun name hname => h name (List.mem_append_right _ hname)
    rw [renderWith_cons, renderWith_cons, hrest]
    congr 1
    match node with
    | .text _ _ => rfl
    | .placeholder own _ =>
      simp only [chosenNode, List.flatMap_singleton, Node.textWith, hnode own List.mem_cons_self]
    | .select own cases fallback _ =>
      have hcases := flatMap_chosenCases_congr (values own) cases fun name hname =>
        hnode name (List.mem_cons_of_mem _ (List.mem_append_left _ hname))
      have hfallback := renderWith_congr fallback fun name hname =>
        hnode name (List.mem_cons_of_mem _ (List.mem_append_right _ hname))
      simp only [renderWith] at hfallback
      rw [chosenNode, chosenNode, ← hnode own List.mem_cons_self,
        ← Option.getD_map (List.flatMap _), ← Option.getD_map (List.flatMap _), hcases, hfallback]

theorem flatMap_chosenCases_congr (label : Option Text) (cases : List Case)
    (h : ∀ name ∈ caseOccurrences cases, values name = values' name) :
    (chosenCases values label cases).map (List.flatMap (Node.textWith absent values)) =
      (chosenCases values' label cases).map (List.flatMap (Node.textWith absent values')) := by
  match cases with
  | [] => rfl
  | ⟨own, body, _⟩ :: rest =>
    have hbody := renderWith_congr body fun name hname => h name (List.mem_append_left _ hname)
    have hrest := flatMap_chosenCases_congr label rest fun name hname =>
      h name (List.mem_append_right _ hname)
    rw [chosenCases, chosenCases]
    by_cases hown : label = some own
    · rw [if_pos hown, if_pos hown]
      exact congrArg some hbody
    · rw [if_neg hown, if_neg hown, hrest]
end

end Agreement

end Pattern

namespace Template

open Pattern

theorem ofVariables_eraseDups (names : List Text) :
    Parameters.ofVariables names.eraseDups =
      if names = [] then .none else .record names.eraseDups := by
  cases names with
  | nil => rfl
  | cons name names =>
    rw [List.eraseDups_cons, if_neg (List.cons_ne_nil _ _), Parameters.ofVariables]

theorem parameters_names (pattern : Text) :
    (compile pattern).parameters.names = (occurrences (parse pattern).nodes).eraseDups := by
  rw [Compiled.parameters, compile, names_eq]
  cases (occurrences (parse pattern).nodes).eraseDups <;> rfl

/-- The literal of nodes without variables is their texts. -/
theorem bodyCode_of_occurrences_eq_nil {nodes : List Node} (h : occurrences nodes = []) :
    bodyCode nodes = (texts nodes).flatten := by
  induction nodes with
  | nil => rfl
  | cons node nodes ih =>
    obtain ⟨hnode, hnodes⟩ := List.append_eq_nil_iff.mp h
    cases node with
    | text value span => rw [bodyCode, nodeCode, ih hnodes, texts, nodeTexts]; rfl
    | placeholder name span => simp [nodeOccurrences] at hnode
    | select name cases fallback span => simp [nodeOccurrences] at hnode

/-- Parameters are what templates read. Their fields are the occurrences of variables without
repetitions, and there is no record if and only if there is nothing but text, which is then copied
into the literal. The fields of a pattern are words. If the literal can be read again, it evaluates
alike under records that agree on the fields and inherit the same members. -/
theorem parameters_exact :
    (∀ nodes,
      names nodes = (occurrences nodes).eraseDups ∧
      Parameters.ofVariables (names nodes) =
        (if occurrences nodes = [] then .none else .record (occurrences nodes).eraseDups) ∧
      (Parameters.ofVariables (names nodes) = .none ↔
        ∀ n, Within nodes n → ∃ value span, n = .text value span) ∧
      (Parameters.ofVariables (names nodes) = .none →
        code nodes = Text.ticked (texts nodes).flatten)) ∧
    ∀ pattern,
      (∀ name ∈ (compile pattern).parameters.names, IsWord name) ∧
      (Plain pattern → WarningFree (compile pattern).diagnostics →
        ∀ (prototype : Script.Prototype) (values values' : Values),
          (∀ name ∈ (compile pattern).parameters.names, values name = values' name) →
            ∃ meaning, Denotes prototype values (compile pattern).code meaning ∧
              Denotes prototype values' (compile pattern).code meaning) := by
  constructor
  · intro nodes
    have hshape := ofVariables_eraseDups (occurrences nodes)
    have hnone : Parameters.ofVariables (names nodes) = .none ↔ occurrences nodes = [] := by
      rw [names_eq, hshape]
      simp
    refine ⟨names_eq nodes, ?_, hnone.trans occurrences_eq_nil_iff, fun h => ?_⟩
    · rw [names_eq, hshape]
    · rw [code, bodyCode_of_occurrences_eq_nil (hnone.mp h)]
  · intro pattern
    simp only [parameters_names, List.mem_eraseDups]
    refine ⟨fun name => isWord_of_mem_occurrences, ?_⟩
    intro hplain hfree prototype values values' hagree
    -- Both literals evaluate to renderings, which read the fields and nothing else.
    have hverbatim := verbatim_parse hplain (.inl hfree)
    refine ⟨_, denotes_code hverbatim prototype values, ?_⟩
    rw [renderWith_congr _ hagree]
    exact denotes_code hverbatim prototype values'

/-- A variable that is read twice, and one that is read in a case only. -/
def repeatedPattern : Text := "\x7bn\x7d\x7bn,select,one\x7b\x7b0\x7d\x7dother\x7b\x7bn\x7d\x7d\x7d"

theorem parameters_exact_repeated :
    (compile repeatedPattern).parameters.names = [['n'], ['0']] ∧ IsWord ['0'] ∧
      Plain repeatedPattern ∧ WarningFree (compile repeatedPattern).diagnostics ∧
      ∃ meaning, Denotes .ordinary priceValues (compile repeatedPattern).code meaning ∧
        Denotes .ordinary (fun name => if name = "x" then some "y" else priceValues name)
          (compile repeatedPattern).code meaning := by
  have hfields : (compile repeatedPattern).parameters.names = [['n'], ['0']] := by decide +kernel
  have hdiagnostics : (compile repeatedPattern).diagnostics = [] := by decide +kernel
  have hplain : Plain repeatedPattern := by decide
  have hfree : WarningFree (compile repeatedPattern).diagnostics := by
    simp [WarningFree, hdiagnostics]
  obtain ⟨hwords, hagree⟩ := parameters_exact.2 repeatedPattern
  refine ⟨hfields, hwords _ (by simp [hfields]), hplain, hfree, hagree hplain hfree _ _ _ ?_⟩
  rw [hfields]
  decide

end Template

end Phrasebook
