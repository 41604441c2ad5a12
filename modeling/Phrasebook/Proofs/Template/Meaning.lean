import Phrasebook.Proofs.Pattern.Texts
import Phrasebook.Proofs.Script.Spelling
import Phrasebook.Proofs.Template.Rendering

/-!
# Templates mean what their patterns mean

The template literal of a pattern is read again, as a script, and evaluated where `v` stands for a
record with the values of the variables. Texts are copied into the literal without escapes, so this
asks for patterns whose texts and labels can be copied: `Template.Verbatim` says which ones can.

A record is an object that inherits members. Where it has no value, a placeholder shows the member
that is inherited under its name, and it is empty only if there is none.

## Main definitions

* `Template.textRuns`: the texts that come to stand next to each other.
* `Template.Verbatim`: no character of a text or a label has a meaning of its own in a literal.
* `Template.bodyParts`: what the template literal of a pattern is read as.
* `Template.OwnOnly`: no placeholder that comes up shows an inherited member.

## Main results

* `Template.expression_code`: the literal is read as one expression.
* `Template.eval_bodyParts`: that expression evaluates to a rendering with inherited members.
* `Template.code_denotes_render`: when this is the rendering itself.
-/

namespace Phrasebook.Template

open Pattern Script

/-! ### Patterns that can be copied into a literal -/

/-- The texts at the start of a list of nodes, joined. -/
def firstRun : List Node → Text
  | .text value _ :: rest => value ++ firstRun rest
  | _ => []

/-- The texts after each placeholder and each select, joined up to the next one. -/
def laterRuns : List Node → List Text
  | [] => []
  | .text _ _ :: rest => laterRuns rest
  | _ :: rest => firstRun rest :: laterRuns rest

/-- The maximal runs of adjacent texts, each joined to one text. A run can be empty. -/
def textRuns (nodes : List Node) : List Text := firstRun nodes :: laterRuns nodes

/-- No substitution starts in a text. -/
def HoleFree (text : Text) : Prop := ¬ ['$', '{'] <:+: text

/-- No character of a text ends a template literal, starts an escape or is changed by a literal. -/
def Plain (text : Text) : Prop := ∀ c ∈ text, c ∉ ['`', '\\', '\r']

instance (text : Text) : Decidable (Plain text) :=
  List.decidableBAll (fun c => c ∉ ['`', '\\', '\r']) text

mutual
/-- The texts and labels in a node can be copied into a literal. -/
def VerbatimNode : Node → Prop
  | .text value _ => Plain value
  | .placeholder _ _ => True
  | .select _ cases fallback _ =>
    VerbatimCases cases ∧ (∀ run ∈ textRuns fallback, HoleFree run) ∧ VerbatimBody fallback

/-- The texts and labels in nodes can be copied into a literal, each by itself. -/
def VerbatimBody : List Node → Prop
  | [] => True
  | node :: rest => VerbatimNode node ∧ VerbatimBody rest

/-- The texts and labels in cases can be copied into a literal. -/
def VerbatimCases : List Case → Prop
  | [] => True
  | ⟨label, body, _⟩ :: rest =>
    (Plain label ∧ HoleFree label) ∧
      ((∀ run ∈ textRuns body, HoleFree run) ∧ VerbatimBody body) ∧ VerbatimCases rest
end

/-- The texts and labels in a pattern can be copied into a literal: none has a character with a
meaning of its own there, and no substitution starts in a label or in a run of texts. -/
def Verbatim (nodes : List Node) : Prop :=
  (∀ run ∈ textRuns nodes, HoleFree run) ∧ VerbatimBody nodes

theorem holeFree_of_not_mem {x : Char} (hx : x = '$' ∨ x = '{') {text : Text} (h : x ∉ text) :
    HoleFree text := by
  rintro ⟨before, after, rfl⟩
  rcases hx with rfl | rfl <;> simp at h

/-- A run of texts consists of characters of texts. -/
theorem exists_mem_texts_of_mem_textRuns {nodes : List Node} {run : Text}
    (h : run ∈ textRuns nodes) {c : Char} (hc : c ∈ run) : ∃ t ∈ texts nodes, c ∈ t := by
  induction nodes generalizing run with
  | nil =>
    obtain rfl := List.mem_singleton.mp h
    simp [firstRun] at hc
  | cons node nodes ih =>
    have hrest {later : Text} (hmem : later ∈ textRuns nodes) (hc : c ∈ later) :
        ∃ t ∈ texts (node :: nodes), c ∈ t := by
      obtain ⟨t, ht, hc⟩ := ih hmem hc
      exact ⟨t, by simp [texts, ht], hc⟩
    cases node with
    | text value span =>
      rcases List.mem_cons.mp h with rfl | h
      · rcases List.mem_append.mp hc with hc | hc
        · exact ⟨value, by simp [texts, nodeTexts], hc⟩
        · exact hrest List.mem_cons_self hc
      · exact hrest (List.mem_cons_of_mem _ h) hc
    | placeholder name span =>
      rcases List.mem_cons.mp h with rfl | h
      · simp [firstRun] at hc
      · exact hrest h hc
    | select name cases fallback span =>
      rcases List.mem_cons.mp h with rfl | h
      · simp [firstRun] at hc
      · exact hrest h hc

/-- A text in which neither character with a meaning of its own nor one of the two characters that
start a substitution occurs. -/
def Harmless (x : Char) (text : Text) : Prop := Plain text ∧ x ∉ text

section Harmless

variable {x : Char} (hx : x = '$' ∨ x = '{')

include hx

theorem holeFree_of_harmless {nodes : List Node} (h : ∀ t ∈ texts nodes, Harmless x t) :
    ∀ run ∈ textRuns nodes, HoleFree run := by
  intro run hrun
  refine holeFree_of_not_mem hx fun hmem => ?_
  obtain ⟨t, ht, hc⟩ := exists_mem_texts_of_mem_textRuns hrun hmem
  exact (h t ht).2 hc

mutual
theorem verbatimBody_of_harmless (nodes : List Node) (h : ∀ t ∈ texts nodes, Harmless x t) :
    VerbatimBody nodes := by
  match nodes with
  | [] => trivial
  | node :: nodes =>
    refine ⟨?_, verbatimBody_of_harmless nodes fun t ht => h t (by simp [texts, ht])⟩
    match node with
    | .text value _ => exact (h value (by simp [texts, nodeTexts])).1
    | .placeholder _ _ => trivial
    | .select _ cases fallback _ =>
      have hfallback : ∀ t ∈ texts fallback, Harmless x t :=
        fun t ht => h t (by simp [texts, nodeTexts, ht])
      exact ⟨verbatimCases_of_harmless cases fun t ht => h t (by simp [texts, nodeTexts, ht]),
        holeFree_of_harmless hx hfallback, verbatimBody_of_harmless fallback hfallback⟩

theorem verbatimCases_of_harmless (cases : List Case) (h : ∀ t ∈ caseTexts cases, Harmless x t) :
    VerbatimCases cases := by
  match cases with
  | [] => trivial
  | ⟨label, body, _⟩ :: cases =>
    have hlabel : Harmless x label := h label (by simp [caseTexts])
    have hbody : ∀ t ∈ texts body, Harmless x t := fun t ht => h t (by simp [caseTexts, ht])
    exact ⟨⟨hlabel.1, holeFree_of_not_mem hx hlabel.2⟩,
      ⟨holeFree_of_harmless hx hbody, verbatimBody_of_harmless body hbody⟩,
      verbatimCases_of_harmless cases fun t ht => h t (by simp [caseTexts, ht])⟩
end

/-- Nodes with harmless texts and labels can be copied into a literal. -/
theorem verbatim_of_harmless {nodes : List Node} (h : ∀ t ∈ texts nodes, Harmless x t) :
    Verbatim nodes :=
  ⟨holeFree_of_harmless hx h, verbatimBody_of_harmless hx nodes h⟩

end Harmless

/-- A pattern without warnings, or without dollar signs, can be copied into a literal unless it
has a character with a meaning of its own there. -/
theorem verbatim_parse {pattern : Text} (hplain : Plain pattern)
    (h : WarningFree (parse pattern).diagnostics ∨ '$' ∉ pattern) :
    Verbatim (parse pattern).nodes := by
  have hchars : ∀ t ∈ texts (parse pattern).nodes, Plain t :=
    fun t ht c hc => hplain c (mem_of_mem_texts ht hc)
  -- Without a warning no text has an opening brace, and else no text has a dollar sign.
  rcases h with hfree | hdollar
  · refine verbatim_of_harmless (.inr rfl) fun t ht => ⟨hchars t ht, fun hbrace => ?_⟩
    exact (braceFree_of_warningFree ht hfree _ hbrace).1 rfl
  · refine verbatim_of_harmless (.inl rfl) fun t ht => ⟨hchars t ht, fun hmem => ?_⟩
    exact hdollar (mem_of_mem_texts ht hmem)

/-! ### What a literal is read as -/

mutual
/-- What the code of a node is read as, in front of the rest of a literal. -/
def nodeParts : Node → Parts → Parts
  | .text value _, rest => rest.prepend value
  | .placeholder name _, rest => .hole [] (.coalesce (recordField true name) (.string [])) rest
  | .select name cases fallback _, rest =>
    .hole [] (casesExpr name (.template (bodyParts fallback)) cases) rest

/-- What the code of nodes is read as. -/
def bodyParts : List Node → Parts
  | [] => .last []
  | node :: rest => nodeParts node (bodyParts rest)

/-- What the conditions of cases are read as. -/
def casesExpr (name : Text) (fallback : Expr) : List Case → Expr
  | [] => fallback
  | ⟨label, body, _⟩ :: rest =>
    .conditional (.equal (recordField false name) (.template (.last label)))
      (.template (bodyParts body)) (casesExpr name fallback rest)
end

/-! ### Reading -/

theorem HoleFree.append_stop {text : Text} {stop : Char} (h : HoleFree text) (hstop : stop ≠ '{') :
    HoleFree (text ++ [stop]) := by
  rw [HoleFree, List.infix_concat_iff, not_or]
  refine ⟨?_, h⟩
  rintro ⟨front, hfront⟩
  have hlast := congrArg List.getLast? hfront
  simp at hlast
  exact hstop hlast.symm

/-- The code of nodes goes on after its first run with the end of the literal or with a
substitution. -/
theorem bodyCode_eq_firstRun_append (nodes : List Node) (rest : Text) :
    ∃ stop more, stop ≠ '{' ∧ bodyCode nodes ++ '`' :: rest = firstRun nodes ++ stop :: more := by
  induction nodes with
  | nil => exact ⟨'`', rest, by decide, rfl⟩
  | cons node nodes ih =>
    cases node with
    | text value span =>
      obtain ⟨stop, more, hstop, heq⟩ := ih
      refine ⟨stop, more, hstop, ?_⟩
      rw [bodyCode, nodeCode, firstRun, List.append_assoc, heq, List.append_assoc]
    | placeholder name span =>
      exact ⟨'$', _, by decide, by simp [bodyCode, nodeCode, firstRun]; rfl⟩
    | select name cases fallback span =>
      exact ⟨'$', _, by decide, by simp [bodyCode, nodeCode, firstRun]; rfl⟩

/-- No substitution starts between a text and the code that follows it in a run. -/
theorem holeFree_append_take {value : Text} {nodes : List Node} (rest : Text)
    (h : HoleFree (value ++ firstRun nodes)) :
    HoleFree (value ++ (bodyCode nodes ++ '`' :: rest).take 1) := by
  obtain ⟨stop, more, hstop, heq⟩ := bodyCode_eq_firstRun_append nodes rest
  have hrun : HoleFree (value ++ firstRun nodes ++ [stop]) := h.append_stop hstop
  intro hstart
  refine hrun (hstart.trans (List.IsPrefix.isInfix ?_))
  rw [heq, List.append_assoc, List.prefix_append_right_inj]
  have htake : (firstRun nodes ++ stop :: more).take 1 = (firstRun nodes ++ [stop]).take 1 := by
    cases firstRun nodes <;> rfl
  rw [htake]
  exact List.take_prefix _ _

/-- The code of a label is read as the label. -/
theorem parts_label {label : Text} (hplain : Plain label) (hhole : HoleFree label)
    (expr : Text → Option (Expr × Text)) (rest : Text) :
    parts expr (label ++ '`' :: rest) = some (.last label, rest) := by
  have hstop : HoleFree (label ++ ('`' :: rest).take 1) := hhole.append_stop (by decide)
  rw [parts_append hplain hstop, parts_tick]
  simp [Parts.prepend]

/-- A template literal is read as an expression if its inside is read. -/
theorem primary_ticked {expr : Text → Option (Expr × Text)} {inside rest : Text} {p : Parts}
    (h : parts expr (inside ++ '`' :: rest) = some (p, rest)) :
    primary expr (Text.ticked inside ++ rest) = some (.template p, rest) := by
  simp [primary, Text.ticked, h]

theorem skipSpace_ticked (inside rest : Text) :
    skipSpace (Text.ticked inside ++ rest) = Text.ticked inside ++ rest := by
  simp [Text.ticked]

theorem expression_ticked {text inside rest : Text} {p : Parts}
    (htext : skipSpace text = Text.ticked inside ++ rest)
    (h : parts (below text.length) (inside ++ '`' :: rest) = some (p, rest))
    (hend : endsExpression rest = true) : expression text = some (.template p, rest) := by
  rw [expression_eq]
  refine conditional_of_primary ?_ hend
  rw [primary_congr (htext.trans (skipSpace_ticked inside rest).symm), primary_ticked h]

/-- The test of a case is read as the comparison of the variable with the label. -/
theorem test_case {name label rest : Text} {bound : Nat} (hplain : Plain label)
    (hhole : HoleFree label)
    (hbound : (access .direct name ++ ("===" ++ Text.ticked label ++ '?' :: '`' :: rest)).length ≤
      bound) :
    binary ['?', '?'] .coalesce (binary ['=', '=', '='] .equal (member (below bound)))
        (access .direct name ++ ("===" ++ Text.ticked label ++ '?' :: '`' :: rest)) =
      some (.equal (recordField false name) (.template (.last label)), '?' :: '`' :: rest) := by
  have hleft := member_access hbound rfl
  have hliteral : primary (below bound) (Text.ticked label ++ '?' :: '`' :: rest) =
      some (.template (.last label), '?' :: '`' :: rest) :=
    primary_ticked (parts_label hplain hhole _ _)
  have hright : member (below bound) (Text.ticked label ++ '?' :: '`' :: rest) =
      some (.template (.last label), '?' :: '`' :: rest) := by
    simp [member, hliteral]
  refine binary_alone (binary_joined hleft ?_ hright) ?_
  · simp [symbol]
  · simp [symbol]

/-- A placeholder is read as the property of its name, or the empty string without it. -/
theorem expression_placeholder (name rest : Text) :
    expression (access .optional name ++ ("??\"\"" ++ '}' :: rest)) =
      some (.coalesce (recordField true name) (.string []), '}' :: rest) := by
  have hend : endsExpression ('}' :: rest) = true := by simp [endsExpression]
  rw [expression_eq]
  have hleft := @member_access .optional name ("??\"\"" ++ '}' :: rest) _ (Nat.le_refl _) rfl
  have hright := member_of_primary
    (primary_quote (below (access .optional name ++ ("??\"\"" ++ '}' :: rest)).length) [] _) hend
  refine conditional_of_test
    (binary_joined (binary_alone hleft ?_) ?_ (binary_alone hright ?_)) hend
  · simp [symbol]
  · simp [symbol]
    rfl
  · simp [symbol]

/-- An expression between parentheses is read as that expression. -/
theorem expression_parentheses {inner rest : Text} {e : Expr}
    (h : expression inner = some (e, ')' :: rest)) (hend : endsExpression rest = true) :
    expression ('(' :: inner) = some (e, rest) := by
  have hclosed : closedBy ')' (e, ')' :: rest) = some (e, rest) :=
    closedBy_cons rfl (by decide) _ _
  have hinner : below ('(' :: inner).length inner = some (e, ')' :: rest) := by
    rw [below_of_lt (by simp), h]
  rw [expression_eq]
  refine conditional_of_primary ?_ hend
  simp only [primary, skipSpace_mark, List.mem_cons, true_or, or_true, if_true, hinner,
    Option.bind_some, hclosed]

/-- A substitution is read, and then the rest of the literal. -/
theorem parts_substitution {text after rest : Text} {value : Expr} {p : Parts} {bound : Nat}
    (hvalue : expression text = some (value, '}' :: after)) (hshort : after.length < text.length)
    (hbound : text.length < bound) (hrest : parts (below bound) after = some (p, rest)) :
    parts (below bound) ('$' :: '{' :: text) = some (.hole [] value p, rest) := by
  rw [parts_hole ((below_of_lt hbound).trans hvalue) hshort, hrest]
  rfl

/-- The condition of a case is read, with the literal of its body and what follows. -/
theorem expression_case {name label body more rest : Text} {p : Parts} {no : Expr}
    (hplain : Plain label) (hhole : HoleFree label)
    (hbody : ∀ bound, (body ++ '`' :: ':' :: more).length < bound →
      parts (below bound) (body ++ '`' :: ':' :: more) = some (p, ':' :: more))
    (hno : expression more = some (no, rest)) :
    expression (access .direct name ++
        ("===" ++ Text.ticked label ++ '?' :: '`' :: (body ++ '`' :: ':' :: more))) =
      some (.conditional (.equal (recordField false name) (.template (.last label)))
        (.template p) no, rest) := by
  have hyes : expression ('`' :: (body ++ '`' :: ':' :: more)) =
      some (.template p, ':' :: more) := by
    refine expression_ticked ?_ (hbody _ (by simp)) (by simp [endsExpression])
    simp [Text.ticked]
  rw [expression_eq]
  refine conditional_of_branches (test_case hplain hhole (Nat.le_refl _)) (by simp) ?_
    ((below_of_lt ?_).trans hno)
  · refine (below_of_lt ?_).trans hyes
    simp only [List.length_append, List.length_cons]
    omega
  · simp only [List.length_append, List.length_cons]
    omega

mutual
/-- The inside of the template literal of nodes is read up to its end. -/
theorem parts_bodyCode (nodes : List Node) (hruns : ∀ run ∈ textRuns nodes, HoleFree run)
    (hbody : VerbatimBody nodes) (bound : Nat) (rest : Text)
    (hbound : (bodyCode nodes ++ '`' :: rest).length < bound) :
    parts (below bound) (bodyCode nodes ++ '`' :: rest) = some (bodyParts nodes, rest) := by
  match nodes with
  | [] => simp [bodyCode, bodyParts]
  | .text value _ :: nodes =>
    -- The text is part of a run with the texts after it, which has no substitution as a whole.
    have hrun : HoleFree (value ++ firstRun nodes) := hruns _ (by simp [textRuns, firstRun])
    have hrest : ∀ run ∈ textRuns nodes, HoleFree run := by
      intro run hmem
      rcases List.mem_cons.mp hmem with rfl | hlater
      · exact fun hstart => hrun (hstart.trans (List.suffix_append _ _).isInfix)
      · exact hruns run (by simp [textRuns, laterRuns, hlater])
    rw [bodyCode, nodeCode, List.append_assoc, List.length_append] at hbound
    have hread := parts_bodyCode nodes hrest hbody.2 bound rest (by omega)
    rw [bodyCode, nodeCode, List.append_assoc,
      parts_append hbody.1 (holeFree_append_take rest hrun), hread]
    rfl
  | .placeholder name _ :: nodes =>
    have hcode : bodyCode (.placeholder name ‹_› :: nodes) ++ '`' :: rest =
        '$' :: '{' :: (access .optional name ++
          ("??\"\"" ++ '}' :: (bodyCode nodes ++ '`' :: rest))) := by
      simp [bodyCode, nodeCode]
    rw [hcode] at hbound ⊢
    simp only [List.length_cons, List.length_append] at hbound
    refine parts_substitution (expression_placeholder name _) ?_ ?_
      (parts_bodyCode nodes (fun run hmem => hruns run ?_) hbody.2 bound rest ?_)
    · simp only [List.length_cons, List.length_append]; omega
    · simp only [List.length_cons, List.length_append]; omega
    · exact List.mem_cons_of_mem _ hmem
    · simp only [List.length_cons, List.length_append]; omega
  | .select name cases fallback _ :: nodes =>
    obtain ⟨⟨hcases, hfallback⟩, hbody⟩ := hbody
    have hcode : bodyCode (.select name cases fallback ‹_› :: nodes) ++ '`' :: rest =
        '$' :: '{' :: '(' :: (casesCode (access .direct name) cases ++
          (Text.ticked (bodyCode fallback) ++ ')' :: '}' :: (bodyCode nodes ++ '`' :: rest))) := by
      simp [bodyCode, nodeCode]
    rw [hcode] at hbound ⊢
    simp only [List.length_cons, List.length_append] at hbound
    have hvalue := expression_casesCode cases hcases name fallback
      ('}' :: (bodyCode nodes ++ '`' :: rest))
      (fun bound => parts_bodyCode fallback hfallback.1 hfallback.2 bound _)
    refine parts_substitution (expression_parentheses hvalue (by simp [endsExpression])) ?_ ?_
      (parts_bodyCode nodes (fun run hmem => hruns run ?_) hbody bound rest ?_)
    · simp only [List.length_cons, List.length_append]; omega
    · simp only [List.length_cons, List.length_append]; omega
    · exact List.mem_cons_of_mem _ hmem
    · simp only [List.length_cons, List.length_append]; omega

/-- The conditions of cases are read up to the parenthesis after the fallback. -/
theorem expression_casesCode (cases : List Case) (hcases : VerbatimCases cases) (name : Text)
    (fallback : List Node) (rest : Text)
    (hfallback : ∀ bound, (bodyCode fallback ++ '`' :: ')' :: rest).length < bound →
      parts (below bound) (bodyCode fallback ++ '`' :: ')' :: rest) =
        some (bodyParts fallback, ')' :: rest)) :
    expression (casesCode (access .direct name) cases ++
        (Text.ticked (bodyCode fallback) ++ ')' :: rest)) =
      some (casesExpr name (.template (bodyParts fallback)) cases, ')' :: rest) := by
  match cases with
  | [] =>
    refine expression_ticked (skipSpace_ticked _ _) (hfallback _ ?_) (by simp [endsExpression])
    simp [Text.ticked, casesCode]
  | ⟨label, body, _⟩ :: cases =>
    obtain ⟨⟨hplain, hhole⟩, ⟨hruns, hbody⟩, hcases⟩ := hcases
    have hcode : casesCode (access .direct name) (⟨label, body, ‹_›⟩ :: cases) ++
        (Text.ticked (bodyCode fallback) ++ ')' :: rest) =
          access .direct name ++ ("===" ++ Text.ticked label ++ '?' :: '`' :: (bodyCode body ++
            '`' :: ':' :: (casesCode (access .direct name) cases ++
              (Text.ticked (bodyCode fallback) ++ ')' :: rest)))) := by
      simp [casesCode, Text.ticked]
    rw [hcode]
    exact expression_case hplain hhole (fun bound => parts_bodyCode body hruns hbody bound _)
      (expression_casesCode cases hcases name fallback rest hfallback)
end

/-- The template literal of a pattern is read as an expression up to where expressions end. -/
theorem expression_code {nodes : List Node} (h : Verbatim nodes) {text rest : Text}
    (htext : skipSpace text = code nodes ++ rest) (hend : endsExpression rest = true) :
    expression text = some (.template (bodyParts nodes), rest) := by
  refine expression_ticked htext (parts_bodyCode nodes h.1 h.2 _ rest ?_) hend
  have hlength := (skipSpace_suffix text).length_le
  rw [htext, code, Text.ticked] at hlength
  simp only [List.length_append, List.length_cons] at hlength ⊢
  omega

/-- The template literal of a pattern is one whole expression. -/
theorem read?_code {nodes : List Node} (h : Verbatim nodes) :
    read? (code nodes) = some (.template (bodyParts nodes)) := by
  have htext : skipSpace (code nodes) = code nodes ++ [] := by simp [code, Text.ticked]
  have hread := expression_code h htext rfl
  simp [read?, hread, skipSpace]

/-! ### Evaluating -/

section Evaluation

variable {scope : Scope} {values : Values} {prototype : Prototype}

theorem eval_recordField (hv : scope ['v'] = some (.record values prototype)) (optional : Bool)
    (name : Text) :
    (recordField optional name).eval scope =
      some ((values name).elim ((prototype.text? name).elim .undefined .inherited) .string) := by
  simp [recordField, Expr.eval, hv, Value.isUndefined, Value.get?]

/-- A placeholder stands for the value of its variable, or else for what is inherited under its
name. -/
theorem eval_placeholder (hv : scope ['v'] = some (.record values prototype)) (name : Text) :
    ∃ a, (Expr.coalesce (recordField true name) (.string [])).eval scope = some a ∧
      a.text? = some ((values name).getD (prototype.text name)) := by
  rw [Expr.eval, eval_recordField hv, Option.bind_some, Prototype.text]
  cases values name with
  | some value => exact ⟨.string value, rfl, rfl⟩
  | none =>
    cases prototype.text? name with
    | some text => exact ⟨.inherited text, rfl, rfl⟩
    | none => exact ⟨.string [], by simp [Value.isUndefined, Expr.eval], rfl⟩

/-- The test of a case holds if the variable has the label as its value. What is inherited is no
string. -/
theorem eval_test (hv : scope ['v'] = some (.record values prototype)) (name label : Text) :
    (Expr.equal (recordField false name) (.template (.last label))).eval scope =
      some (.boolean (values name = some label)) := by
  rw [Expr.eval, eval_recordField hv, Option.bind_some]
  cases values name with
  | some value => simp [Expr.eval, Parts.eval, Value.strictEqual?]
  | none =>
    cases prototype.text? name <;> simp [Expr.eval, Parts.eval, Value.strictEqual?]

mutual
/-- What the inside of a template literal is read as evaluates to a rendering of its nodes in which
variables without values have the texts of what is inherited. -/
theorem eval_bodyParts (hv : scope ['v'] = some (.record values prototype)) (nodes : List Node) :
    (bodyParts nodes).eval scope = some (renderWith prototype.text values nodes) := by
  match nodes with
  | [] => rfl
  | .text value _ :: nodes =>
    rw [bodyParts, nodeParts, Parts.eval_prepend, eval_bodyParts hv nodes, renderWith_cons]
    simp [chosenNode, Node.textWith]
  | .placeholder name _ :: nodes =>
    obtain ⟨a, ha, htext⟩ := eval_placeholder hv name
    rw [bodyParts, nodeParts, Parts.eval_hole ha htext, eval_bodyParts hv nodes, renderWith_cons]
    simp [chosenNode, Node.textWith]
  | .select name cases fallback _ :: nodes =>
    have hcases := eval_casesExpr hv name cases (.template (bodyParts fallback))
      (chosen values fallback) (by simp [Expr.eval, eval_bodyParts hv fallback, renderWith])
    rw [bodyParts, nodeParts, Parts.eval_hole hcases rfl, eval_bodyParts hv nodes, renderWith_cons]
    simp [chosenNode]

/-- What the conditions of cases are read as evaluates to the first case that matches. -/
theorem eval_casesExpr (hv : scope ['v'] = some (.record values prototype)) (name : Text)
    (cases : List Case) (fallback : Expr) (others : List Node)
    (hfallback : fallback.eval scope =
      some (.string (others.flatMap (Node.textWith prototype.text values)))) :
    (casesExpr name fallback cases).eval scope =
      some (.string (((chosenCases values (values name) cases).getD others).flatMap
        (Node.textWith prototype.text values))) := by
  match cases with
  | [] => exact hfallback
  | ⟨label, body, _⟩ :: cases =>
    rw [casesExpr, Expr.eval, eval_test hv, Option.bind_some]
    by_cases h : values name = some label
    · simp [h, Value.isTruthy, Expr.eval, eval_bodyParts hv body, chosenCases, renderWith]
    · simp [h, Value.isTruthy, eval_casesExpr hv name cases fallback others hfallback, chosenCases]
end

end Evaluation

/-! ### Meaning -/

/-- A text is one template literal, and it evaluates to another text where `v` stands for a record
of values with a prototype. -/
def Denotes (prototype : Prototype) (values : Values) (code meaning : Text) : Prop :=
  ∃ inside, read? code = some (.template inside) ∧
    (Expr.template inside).eval (.single ['v'] (.record values prototype)) =
      some (.string meaning)

theorem Denotes.unique {prototype : Prototype} {values : Values} {code a b : Text}
    (ha : Denotes prototype values code a) (hb : Denotes prototype values code b) : a = b := by
  obtain ⟨inside, hinside, ha⟩ := ha
  obtain ⟨inside', hinside', hb⟩ := hb
  obtain rfl : inside = inside' := by simpa using hinside.symm.trans hinside'
  simpa using ha.symm.trans hb

/-- Each placeholder that comes up has a value, or nothing is inherited under its name. -/
def OwnOnly (prototype : Prototype) (values : Values) (nodes : List Node) : Prop :=
  ∀ name span, .placeholder name span ∈ chosen values nodes → values name = none →
    prototype.text? name = none

theorem renderWith_text_eq_iff {prototype : Prototype} {values : Values} {nodes : List Node} :
    renderWith prototype.text values nodes = render values nodes ↔
      OwnOnly prototype values nodes := by
  simp only [renderWith_eq_render_iff, Prototype.text_eq_nil_iff]
  rfl

theorem denotes_code {nodes : List Node} (h : Verbatim nodes) (prototype : Prototype)
    (values : Values) :
    Denotes prototype values (code nodes) (renderWith prototype.text values nodes) := by
  refine ⟨bodyParts nodes, read?_code h, ?_⟩
  have hv : Scope.single ['v'] (.record values prototype) ['v'] =
      some (.record values prototype) := if_pos rfl
  rw [Expr.eval, eval_bodyParts hv]
  rfl

theorem denotes_code_render_iff {nodes : List Node} (h : Verbatim nodes) {prototype : Prototype}
    {values : Values} :
    Denotes prototype values (code nodes) (render values nodes) ↔
      OwnOnly prototype values nodes := by
  have hmeaning := denotes_code h prototype values
  rw [← renderWith_text_eq_iff]
  exact ⟨hmeaning.unique, fun heq => heq ▸ hmeaning⟩

/-- The template literal of a pattern evaluates to a rendering of the pattern in which a variable
without a value has the text of what is inherited under its name. This is the rendering itself,
where such a variable has the empty text, if and only if each placeholder that comes up has a value
or nothing is inherited under its name. It holds of all nodes whose texts and labels can be copied
into a literal, and so of all patterns without a character that has a meaning of its own there, if
they have no warning or no dollar sign. -/
theorem code_denotes_render (prototype : Prototype) (values : Values) :
    (∀ nodes, Verbatim nodes →
      Denotes prototype values (code nodes) (renderWith prototype.text values nodes) ∧
      (Denotes prototype values (code nodes) (render values nodes) ↔
        OwnOnly prototype values nodes)) ∧
    ∀ pattern, Plain pattern → WarningFree (parse pattern).diagnostics ∨ '$' ∉ pattern →
      Denotes prototype values (compile pattern).code
        (renderWith prototype.text values (parse pattern).nodes) ∧
      (Denotes prototype values (compile pattern).code (render values (parse pattern).nodes) ↔
        OwnOnly prototype values (parse pattern).nodes) := by
  refine ⟨fun nodes h => ⟨denotes_code h prototype values, denotes_code_render_iff h⟩, ?_⟩
  intro pattern hplain h
  have hverbatim := verbatim_parse hplain h
  exact ⟨denotes_code hverbatim prototype values, denotes_code_render_iff hverbatim⟩

/-- Text that ends in a dollar sign, a quoted name, a repeated label and a select inside of a
select. -/
def priceNodes : List Node :=
  [.text "US$" (.point 0), .placeholder "0" (.point 0),
    .select "n"
      [⟨"one", [.text "$ " (.point 0), .select "m" [] [.text "x" (.point 0)] (.point 0)], .point 0⟩,
        ⟨"one", [.text "never" (.point 0)], .point 0⟩]
      [.placeholder "a b" (.point 0)] (.point 0)]

/-- The values of `0` and `n`. -/
def priceValues : Values := fun name =>
  if name = "0" then some "7" else if name = "n" then some "one" else none

theorem verbatim_priceNodes : Verbatim priceNodes := by
  simp only [Verbatim, VerbatimBody, VerbatimNode, VerbatimCases, priceNodes, textRuns, firstRun,
    laterRuns, HoleFree]
  decide

theorem ownOnly_priceNodes : OwnOnly .ordinary priceValues priceNodes := by
  have hchosen : chosen priceValues priceNodes =
      [.text "US$" (.point 0), .placeholder "0" (.point 0), .text "$ " (.point 0),
        .text "x" (.point 0)] := by decide +kernel
  have hvalue : priceValues "0" ≠ none := by decide
  intro name span hmem hnone
  simp only [hchosen, List.mem_cons, Node.placeholder.injEq, reduceCtorEq, List.not_mem_nil,
    false_or, or_false] at hmem
  rw [hmem.1] at hnone
  exact absurd hnone hvalue

/-- A pattern with a dollar sign in a case. -/
def pricePattern : Text := "\x7bn,select,a\x7b$\x7dother\x7b\x7bx\x7d!\x7d\x7d"

theorem ownOnly_pricePattern : OwnOnly .ordinary priceValues (parse pricePattern).nodes := by
  have hchosen : chosen priceValues (parse pricePattern).nodes =
      [.placeholder "x" ⟨20, 23⟩, .text "!" ⟨23, 24⟩] := by decide +kernel
  intro name span hmem _
  simp only [hchosen, List.mem_cons, Node.placeholder.injEq, reduceCtorEq, List.not_mem_nil,
    or_false] at hmem
  rw [hmem.1]
  decide

/-- A placeholder with the name of a function that all ordinary objects inherit. -/
def toStringPattern : Text := "\x7btoString\x7d"

theorem code_denotes_render_price :
    Verbatim priceNodes ∧ Denotes .ordinary priceValues (code priceNodes) "US$7$ x" ∧
      Plain pricePattern ∧ Denotes .ordinary priceValues (compile pricePattern).code "!" ∧
      Plain toStringPattern ∧ render (fun _ => none) (parse toStringPattern).nodes = [] ∧
      ¬ Denotes .ordinary (fun _ => none) (compile toStringPattern).code [] ∧
      Denotes .ordinary (fun _ => none) (compile toStringPattern).code
        (Prototype.nativeText "toString") := by
  obtain ⟨hnodes, hpatterns⟩ := code_denotes_render .ordinary priceValues
  obtain ⟨-, hempty⟩ := code_denotes_render .ordinary fun _ => none
  have hprice : (parse pricePattern).diagnostics = [] := by decide +kernel
  have hplain : Plain pricePattern := by decide
  have hrender : render priceValues (parse pricePattern).nodes = "!" := by decide +kernel
  have hmeaning := (hpatterns _ hplain (.inl (by simp [WarningFree, hprice]))).2.2
    ownOnly_pricePattern
  rw [hrender] at hmeaning
  have hparsed : (parse toStringPattern).nodes = [.placeholder "toString" ⟨0, 10⟩] := by
    decide +kernel
  have hclean : (parse toStringPattern).diagnostics = [] := by decide +kernel
  have hplain' : Plain toStringPattern := by decide
  have htext : Prototype.ordinary.text? "toString" = some (Prototype.nativeText "toString") := by
    decide
  have hinherited : renderWith Prototype.ordinary.text (fun _ => none)
      (parse toStringPattern).nodes = Prototype.nativeText "toString" := by
    rw [hparsed, renderWith, chosen, chosenNode, chosen, List.append_nil, List.flatMap_singleton,
      Node.textWith, Option.getD_none, Prototype.text, htext, Option.getD_some]
  have hnothing : render (fun _ => none) (parse toStringPattern).nodes = [] := by
    simp [hparsed, render, renderNode]
  have hmeaning' := (hempty _ hplain' (.inl (by simp [WarningFree, hclean]))).1
  rw [hinherited] at hmeaning'
  refine ⟨verbatim_priceNodes, (hnodes _ verbatim_priceNodes).2.2 ownOnly_priceNodes, hplain,
    hmeaning, hplain', hnothing, fun h => ?_, hmeaning'⟩
  exact Prototype.nativeText_ne_nil _ (hmeaning'.unique h)

end Phrasebook.Template
