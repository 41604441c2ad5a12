import Phrasebook.Catalog.Module
import Phrasebook.Proofs.Script.ProgramReader
import Phrasebook.Proofs.Template.Variables

/-!
# Reading the module of a store

The module of a store is read as a program. Its keys and the templates of its patterns are copied
into it, so this rests on the spellings of quoted texts and of template literals.

## Main definitions

* `Catalog.alternative`, `Catalog.propsShape`: the type of the arguments of the function.
* `Catalog.Entry.clause`, `Catalog.functionBody`: the arm of an entry, and the body of the function.
* `Catalog.Entry.Readable`: an entry whose template can be read.

## Main results

* `Catalog.moduleText_eq`: the text of a module, piece by piece.
* `Catalog.readModule?_moduleText`: the module of a store is read as a type and a function.
-/

namespace Phrasebook.Catalog

open Layout Script Template

/-! ### The text of a module -/

theorem renderAt_line (level : Nat) {text : Text} (h : text ≠ []) (rest : Layout) :
    renderAt level (.line text :: rest) =
      indentation level ++ (text ++ '\n' :: renderAt level rest) := by
  have hempty : text.isEmpty = false := by simpa using h
  rw [renderAt, hempty]
  simp

/-- What follows the label of an arm. -/
def Entry.armBody (entry : Entry) : Text :=
  if entry.compiled.names.isEmpty then ' ' :: ("return" ++ ' ' :: entry.compiled.code)
  else
    ' ' :: '{' :: '\n' :: (indentation 3 ++ ("const v = p[1]" ++ '\n' :: (indentation 3 ++
      ("return" ++ ' ' :: (entry.compiled.code ++ '\n' :: (indentation 2 ++ ['}']))))))

/-- Arms, each on lines of its own, in front of a text. -/
def armsText : List Entry → Text → Text
  | [], rest => rest
  | entry :: entries, rest =>
    indentation 2 ++ ("case " ++ (Text.quote entry.key ++ ':' :: (entry.armBody ++
      '\n' :: armsText entries rest)))

theorem isRecord_eq (entry : Entry) :
    entry.compiled.parameters.isRecord = !entry.compiled.names.isEmpty := by
  rw [Compiled.parameters]
  cases entry.compiled.names <;> rfl

theorem renderAt_arms (entries : List Entry) (rest : Layout) :
    renderAt 2 (entries.flatMap Entry.arm ++ rest) = armsText entries (renderAt 2 rest) := by
  induction entries with
  | nil => rfl
  | cons entry entries ih =>
    rw [List.flatMap_cons, List.append_assoc, armsText, ← ih, Entry.arm, Entry.armBody, isRecord_eq]
    cases hnames : entry.compiled.names.isEmpty with
    | true => simp [renderAt_line]
    | false => simp [renderAt_line, nested, renderAt]

/-- The alternatives of a union, each on a line of its own, in front of a text. -/
def shapesText : List Entry → Text → Text
  | [], rest => rest
  | entry :: entries, rest =>
    indentation 1 ++ ("| " ++ (entry.shape ++ '\n' :: shapesText entries rest))

theorem renderAt_shapes (entries : List Entry) (rest : Layout) :
    renderAt 1 ((entries.map fun entry => .line ("| " ++ entry.shape)) ++ rest) =
      shapesText entries (renderAt 1 rest) := by
  induction entries with
  | nil => rfl
  | cons entry entries ih =>
    rw [List.map_cons, List.cons_append, renderAt_line 1 (by simp), ih, shapesText,
      List.append_assoc]

/-- The type of the arguments, in front of a text. -/
def propsText (entries : List Entry) (rest : Text) : Text :=
  if entries.isEmpty then "export type Props = never" ++ '\n' :: rest
  else "export type Props =" ++ '\n' :: shapesText entries rest

/-- The default clause and the closing braces. -/
def defaultText : Text :=
  indentation 2 ++ ("default: return `MISSING $\x7bp[0]\x7d`" ++
    '\n' :: (indentation 1 ++ ("\x7d" ++ '\n' :: ("\x7d" ++ ['\n']))))

/-- The function of a module. -/
def functionText (entries : List Entry) : Text :=
  "export const translate = (...p: Props): string => \x7b" ++
    '\n' :: (indentation 1 ++ ("switch (p[0]) \x7b" ++ '\n' :: armsText entries defaultText))

theorem renderAt_switch (store : Store) :
    renderAt 0 store.switch = functionText store.entries := by
  simp only [Store.switch, nested, List.cons_append, List.append_assoc, List.nil_append]
  rw [renderAt_line 0 (by decide), renderAt, renderAt_line 1 (by decide), renderAt, renderAt_arms,
    renderAt_line 2 (by decide), renderAt, renderAt_line 1 (by decide), renderAt,
    renderAt_line 0 (by decide)]
  rfl

theorem renderAt_props (store : Store) (rest : Layout) :
    renderAt 0 (store.shapes ++ rest) = propsText store.entries (renderAt 0 rest) := by
  rw [Store.shapes, propsText]
  split_ifs
  · rw [List.cons_append, renderAt_line 0 (by decide)]
    rfl
  · simp only [nested, List.cons_append, List.append_assoc]
    rw [renderAt_line 0 (by decide), renderAt, renderAt_shapes]
    rfl

theorem moduleText_eq (store : Store) :
    store.moduleText =
      generatedNotice ++ '\n' :: '\n' ::
        propsText store.entries ('\n' :: functionText store.entries) := by
  simp only [Store.moduleText, render, List.cons_append, List.nil_append, List.append_assoc]
  rw [renderAt_line 0 (by decide), renderAt, renderAt_props, renderAt, renderAt_switch]
  rfl

/-! ### The union of tuple types -/

/-- The record type with a string under each name. -/
def stringRecord (names : List Text) : Shape :=
  .record (names.map fun name => (name, .name "string"))

/-- The tuple type of a key, with a record if there are names. -/
def alternative (key : Text) (names : List Text) : Shape :=
  .tuple ((['k'], .literal key) :: if names.isEmpty then [] else [(['v'], stringRecord names)])

/-- A label and a colon are read in front of a type. -/
theorem labelled_append {label : Text → Option (Text × Text)}
    {inner : Text → Option (Shape × Text)} {text name after rest : Text} {type : Shape}
    (hlabel : label text = some (name, ':' :: after)) (hinner : inner after = some (type, rest)) :
    labelled label inner text = some ((name, type), rest) := by
  have hclosed : closedBy ':' (name, ':' :: after) = some (name, after) :=
    closedBy_cons rfl (by decide) _ _
  rw [labelled, hlabel, Option.bind_some, hclosed, Option.bind_some]
  simp [hinner]

theorem labelled_property (depth : Nat) (name rest : Text) (hend : endsName rest = true) :
    labelled propertyName (shape (depth + 1)) (property name ++ (": string" ++ rest)) =
      some ((name, .name "string"), rest) := by
  refine labelled_append (propertyName_property name _ rfl) ?_
  exact shape_name (by decide) hend rfl (by decide) depth

theorem skipSpace_property (name rest : Text) :
    skipSpace (property name ++ rest) = property name ++ rest := by
  rw [property]
  split_ifs with hname
  · exact skipSpace_of_isIdentifier hname rest
  · exact skipSpace_quote name rest

/-- The members of a record type. -/
def membersText (names : List Text) : Text :=
  Text.joinWith "; " (names.map fun name => property name ++ ": string")

theorem membersText_singleton (name rest : Text) :
    membersText [name] ++ rest = property name ++ (": string" ++ rest) := by
  simp [membersText, Text.joinWith]

theorem membersText_cons (name next : Text) (names : List Text) (rest : Text) :
    membersText (name :: next :: names) ++ rest =
      property name ++ (": string" ++ (';' :: ' ' :: (membersText (next :: names) ++ rest))) := by
  simp [membersText, Text.joinWith, List.intercalate]

/-- The members of a record type are read. -/
theorem separated_members (depth : Nat) (name : Text) (names : List Text) (rest : Text) :
    separated ';' (labelled propertyName (shape (depth + 1)))
        (membersText (name :: names) ++ '}' :: rest) =
      some ((name :: names).map fun name => (name, .name "string"), '}' :: rest) := by
  induction names generalizing name with
  | nil =>
    rw [membersText_singleton]
    exact separated_last (labelled_property depth name _ rfl) rfl
  | cons next names ih =>
    have hspace : skipSpace (' ' :: (membersText (next :: names) ++ '}' :: rest)) =
        membersText (next :: names) ++ '}' :: rest := by
      rw [skipSpace_of_isSpace rfl]
      cases names with
      | nil => rw [membersText_singleton, skipSpace_property]
      | cons other names => rw [membersText_cons, skipSpace_property]
    rw [membersText_cons,
      separated_cons (labelled_property depth name _ rfl) (mark_append rfl) hspace, ih]
    · rfl
    · simp only [List.length_append, List.length_cons]
      omega

theorem shape_record (depth : Nat) (name : Text) (names : List Text) (rest : Text) :
    shape (depth + 2) ('{' :: (membersText (name :: names) ++ '}' :: rest)) =
      some (stringRecord (name :: names), rest) := by
  have hclosed (fields : List (Text × Shape)) : closedBy '}' (fields, '}' :: rest) =
      some (fields, rest) := closedBy_cons rfl (by decide) _ _
  rw [shape, shapeWith]
  simp only [skipSpace_mark, List.mem_cons, true_or, or_true, separated_members, Option.bind_some,
    hclosed, Option.map_some]
  rfl

/-- The label of the key and the key are read. -/
theorem labelled_key (depth : Nat) (key rest : Text) :
    labelled identifier (shape (depth + 1)) ('k' :: ':' :: ' ' :: (Text.quote key ++ rest)) =
      some ((['k'], .literal key), rest) := by
  refine labelled_append (@identifier_append ['k'] _ _ (by decide) rfl rfl (by decide)) ?_
  exact shape_quote depth ((skipSpace_of_isSpace rfl _).trans (skipSpace_quote key rest))

/-- The label of the record and its type are read. -/
theorem labelled_record (depth : Nat) (name : Text) (names : List Text) (rest : Text) :
    labelled identifier (shape (depth + 2))
        ('v' :: ':' :: '{' :: (membersText (name :: names) ++ '}' :: rest)) =
      some ((['v'], stringRecord (name :: names)), rest) := by
  refine labelled_append (@identifier_append ['v'] _ _ (by decide) rfl rfl (by decide)) ?_
  exact shape_record depth name names rest

/-- The tuple type of an entry is read. -/
theorem shape_entry (depth : Nat) (entry : Entry) (rest : Text) :
    shape (depth + 3) (entry.shape ++ rest) =
      some (alternative entry.key entry.compiled.names, rest) := by
  have hclosed (items : List (Text × Shape)) : closedBy ']' (items, ']' :: rest) =
      some (items, rest) := closedBy_cons rfl (by decide) _ _
  cases hnames : entry.compiled.names with
  | nil =>
    have htext : entry.shape ++ rest =
        '[' :: 'k' :: ':' :: ' ' :: (Text.quote entry.key ++ ']' :: rest) := by
      simp [Entry.shape, Compiled.parameters, hnames, Parameters.ofVariables,
        Parameters.typescript?]
    have hitems := separated_last (labelled_key (depth + 1) entry.key (']' :: rest))
      (show mark [','] (']' :: rest) = none from rfl)
    rw [htext, shape, shapeWith]
    simp only [skipSpace_mark, List.mem_cons, true_or, or_true, hitems, Option.bind_some, hclosed,
      Option.map_some]
    rfl
  | cons name names =>
    have htext : entry.shape ++ rest =
        '[' :: 'k' :: ':' :: ' ' :: (Text.quote entry.key ++ ',' :: ' ' :: 'v' :: ':' :: '{' ::
          (membersText (name :: names) ++ '}' :: ']' :: rest)) := by
      simp [Entry.shape, Compiled.parameters, hnames, Parameters.ofVariables,
        Parameters.typescript?, membersText]
    have hrecord := separated_last (labelled_record depth name names (']' :: rest))
      (show mark [','] (']' :: rest) = none from rfl)
    have hitems : separated ',' (labelled identifier (shape (depth + 2)))
        ('k' :: ':' :: ' ' :: (Text.quote entry.key ++ ',' :: ' ' :: 'v' :: ':' :: '{' ::
          (membersText (name :: names) ++ '}' :: ']' :: rest))) =
          some ([(['k'], .literal entry.key), (['v'], stringRecord (name :: names))],
            ']' :: rest) := by
      have hlabel : isIdentifier ['v'] = true := by decide
      rw [separated_cons (labelled_key (depth + 1) entry.key _) (mark_append rfl)
        ((skipSpace_of_isSpace rfl _).trans (skipSpace_of_isIdentifier hlabel _))]
      · exact congrArg (Option.map _) hrecord
      · simp only [List.length_append, List.length_cons, List.length_nil]
        omega
    rw [htext, shape, shapeWith]
    simp only [skipSpace_mark, List.mem_cons, true_or, or_true, hitems, Option.bind_some, hclosed,
      Option.map_some]
    rfl

theorem skipSpace_shape (entry : Entry) (rest : Text) :
    skipSpace (entry.shape ++ rest) = entry.shape ++ rest := by
  rw [Entry.shape]
  split <;> exact skipSpace_mark (by decide) _

/-- The alternatives of the union are read. -/
theorem separated_shapes (depth : Nat) (entry : Entry) (entries : List Entry) {rest : Text}
    (hrest : mark ['|'] rest = none) :
    separated '|' (shape (depth + 3)) (entry.shape ++ '\n' :: shapesText entries rest) =
      some ((entry :: entries).map fun entry => alternative entry.key entry.compiled.names,
        '\n' :: rest) := by
  induction entries generalizing entry with
  | nil => exact separated_last (shape_entry depth entry _) hrest
  | cons next entries ih =>
    rw [separated_cons (shape_entry depth entry _) (mark_append rfl)
      ((skipSpace_of_isSpace rfl _).trans (skipSpace_shape next _)), ih next]
    · rfl
    · simp only [shapesText, List.length_append, List.length_cons]
      omega

/-- The type of the arguments of entries. -/
def propsShape (entries : List Entry) : Shape :=
  if entries.isEmpty then .name "never"
  else .union (entries.map fun entry => alternative entry.key entry.compiled.names)

/-- The declaration of a type is read up to where the type ends. -/
theorem declaration_type {depth : Nat} {body rest : Text} {type : Shape}
    (hunion : union depth body = some (type, rest)) :
    declaration depth ("export type Props =" ++ body) = terminated (.shape "Props" type, rest) := by
  have hexport : word (skipSpace ("export type Props =" ++ body)) =
      some (("export" : Text), " type Props =" ++ body) := word_skipSpace (by decide) rfl rfl
  have htype : word (skipSpace (" type Props =" ++ body)) =
      some (("type" : Text), " Props =" ++ body) := word_skipSpace (by decide) rfl rfl
  have hname : identifier (" Props =" ++ body) = some (("Props" : Text), " =" ++ body) :=
    identifier_append (by decide) rfl rfl (by decide)
  have hclosed : closedBy '=' (("Props" : Text), " =" ++ body) =
      some (("Props" : Text), body) := rfl
  rw [declaration, hexport, Option.bind_some]
  dsimp only
  rw [if_pos rfl, htype, Option.bind_some]
  dsimp only
  rw [if_pos rfl, hname, Option.bind_some, hclosed, Option.bind_some]
  dsimp only
  rw [hunion, Option.map_some, Option.bind_some]

/-- The type of the arguments is read, up to the end of its last line. -/
theorem union_props (depth : Nat) (entries : List Entry) {rest : Text}
    (hrest : mark ['|'] rest = none) :
    ∃ body, propsText entries rest = "export type Props =" ++ body ∧
      union (depth + 3) body = some (propsShape entries, '\n' :: rest) := by
  cases entries with
  | nil =>
    have hsplit : ("export type Props = never" : Text) = "export type Props =" ++ " never" := rfl
    refine ⟨" never" ++ '\n' :: rest, ?_, ?_⟩
    · rw [propsText, List.isEmpty_nil, if_pos rfl, hsplit, List.append_assoc]
    have hnever : shape (depth + 3) ("never" ++ '\n' :: rest) =
        some (.name "never", '\n' :: rest) :=
      shape_name (by decide) rfl rfl (by decide) (depth + 2)
    have hspace : skipSpace (" never" ++ '\n' :: rest) = "never" ++ '\n' :: rest := rfl
    have hlast := @separated_last _ _ '|' _ _ _ hnever hrest
    rw [union, hspace]
    exact congrArg (Option.map _) hlast
  | cons entry entries =>
    refine ⟨'\n' :: shapesText (entry :: entries) rest, rfl, ?_⟩
    have hspace : skipSpace ('\n' :: shapesText (entry :: entries) rest) =
        '|' :: ' ' :: (entry.shape ++ '\n' :: shapesText entries rest) := rfl
    have hstart : skipSpace (' ' :: (entry.shape ++ '\n' :: shapesText entries rest)) =
        entry.shape ++ '\n' :: shapesText entries rest :=
      (skipSpace_of_isSpace rfl _).trans (skipSpace_shape entry _)
    rw [union, hspace]
    simp only [hstart, separated_shapes depth entry entries hrest, Option.map_some]
    rfl

/-- The declaration of the type is read, up to the next declaration. -/
theorem declaration_props (depth : Nat) (entries : List Entry) {rest after : Text}
    (hrest : skipSpace rest = "export" ++ ' ' :: after) :
    declaration (depth + 3) (propsText entries rest) =
      some (.shape "Props" (propsShape entries), "export" ++ ' ' :: after) := by
  have hmark : mark ['|'] rest = none := by
    rw [mark, hrest]
    rfl
  obtain ⟨body, htext, hunion⟩ := union_props depth entries hmark
  rw [htext, declaration_type hunion]
  exact terminated_word (by decide) rfl hrest _

/-! ### Statements -/

/-- The argument of the function at an index. -/
def argument (index : Nat) : Expr := .member (.name ['p']) false (.number index)

/-- The key or the record among the arguments is read. -/
theorem expression_argument {digit : Char} {index : Nat} {text rest : Text}
    (hdigit : digit = '0' ∧ index = 0 ∨ digit = '1' ∧ index = 1)
    (htext : skipSpace text = 'p' :: '[' :: digit :: ']' :: rest)
    (hend : endsExpression rest = true) : expression text = some (argument index, rest) := by
  have hlength := length_skipSpace_le text
  rw [htext] at hlength
  have hname : primary (below text.length) text =
      some (.name ['p'], '[' :: digit :: ']' :: rest) := by
    rw [primary_congr (htext.trans (skipSpace_cons rfl (by decide) _).symm)]
    exact primary_name (.inr rfl) _ _ rfl
  have hindex : expression (digit :: ']' :: rest) = some (.number index, ']' :: rest) := by
    rw [expression_eq]
    refine conditional_of_primary ?_ (by simp [endsExpression])
    rcases hdigit with ⟨rfl, rfl⟩ | ⟨rfl, rfl⟩ <;> rfl
  have hkey : (below text.length (digit :: ']' :: rest)).bind (closedBy ']') =
      some (.number index, rest) := by
    rw [below_of_lt (by simp only [List.length_cons] at hlength ⊢; omega), hindex,
      Option.bind_some]
    exact closedBy_cons rfl (by decide) _ _
  rw [expression_eq]
  refine conditional_of_test
    (binary_alone (binary_alone (member_of_brackets hname hkey) ?_) ?_) hend
  · exact symbol_of_endsExpression hend (by simp) _
  · exact symbol_of_endsExpression hend (by simp) _

/-- A result is read if its expression is. -/
theorem statement_result (depth : Nat) {text rest after : Text} {value : Expr}
    (hstart : skipSpace text = text) (hvalue : expression (' ' :: text) = some (value, rest))
    (hend : terminated (Statement.result value, rest) = some (.result value, after)) :
    statement (depth + 1) ("return" ++ ' ' :: text) = some (.result value, after) := by
  have hline : ¬ crossesLine (' ' :: text) = true := by simp [(crossesLine_eq_false hstart).2]
  rw [@statement_word "return" _ (' ' :: text) (by decide) rfl rfl, statementAfter,
    if_neg (by decide), if_pos rfl, if_neg hline, hvalue]
  exact hend

/-- The binding of the record is read, up to the result after it. -/
theorem statement_constant (depth : Nat) {rest after : Text}
    (hrest : skipSpace rest = "return" ++ ' ' :: after) :
    statement (depth + 1) ("const v = p[1]" ++ '\n' :: rest) =
      some (.constant ['v'] (argument 1), "return" ++ ' ' :: after) := by
  have hend : endsExpression ('\n' :: rest) = true := by
    rw [endsExpression, skipSpace_of_isSpace rfl, hrest]
    rfl
  have hname : identifier (" v = p[1]" ++ '\n' :: rest) =
      some (['v'], " = p[1]" ++ '\n' :: rest) :=
    @identifier_append ['v'] _ _ (by decide) rfl rfl (by decide)
  have hclosed : closedBy '=' (['v'], " = p[1]" ++ '\n' :: rest) =
      some (['v'], " p[1]" ++ '\n' :: rest) := rfl
  have hvalue : expression (" p[1]" ++ '\n' :: rest) = some (argument 1, '\n' :: rest) :=
    expression_argument (.inr ⟨rfl, rfl⟩) rfl hend
  have hconstant : constant (" v = p[1]" ++ '\n' :: rest) =
      some (.constant ['v'] (argument 1), '\n' :: rest) := by
    rw [constant, hname, Option.bind_some, hclosed, Option.bind_some]
    exact congrArg (Option.map _) hvalue
  rw [@statement_word "const" _ (" v = p[1]" ++ '\n' :: rest) (by decide) rfl rfl, statementAfter,
    if_pos rfl, hconstant]
  exact terminated_word (by decide) rfl hrest _

/-! ### Clauses -/

/-- A text starts with the word of a clause. -/
def StartsClause (text : Text) : Prop :=
  ∃ name rest, (name = ("case" : Text) ∨ name = ("default" : Text)) ∧ endsName rest = true ∧
    text = name ++ rest

namespace StartsClause

variable {text : Text} (h : StartsClause text)

include h

theorem skipSpace : skipSpace text = text := by
  obtain ⟨name, rest, rfl | rfl, -, rfl⟩ := h <;> rfl

theorem endsClause : endsClause text = true := by
  obtain ⟨name, rest, rfl | rfl, hend, rfl⟩ := h
  · rw [Script.endsClause, word_of_isIdentifier (by decide) hend]
    simp
  · rw [Script.endsClause, word_of_isIdentifier (by decide) hend]
    simp

theorem endsExpression {rest : Text} (hrest : Script.skipSpace rest = text) :
    endsExpression ('\n' :: rest) = true := by
  rw [Script.endsExpression, skipSpace_of_isSpace rfl, hrest]
  obtain ⟨name, rest, rfl | rfl, -, rfl⟩ := h <;> rfl

theorem terminated {rest : Text} (hrest : Script.skipSpace rest = text) (value : Statement) :
    terminated (value, '\n' :: rest) = some (value, text) := by
  obtain ⟨name, after, hname, hend, rfl⟩ := h
  refine terminated_word ?_ hend hrest value
  rcases hname with rfl | rfl <;> decide

end StartsClause

/-- A statement up to the end of a clause is the body of the clause. -/
theorem many_statement {inner : Text → Option (Statement × Text)} {text start after : Text}
    {s : Statement} (hitem : inner start = some (s, after)) (hstart : skipSpace text = start)
    (hstops : endsClause start = false) (hshort : after.length < start.length)
    (hafter : endsClause (skipSpace after) = true) :
    many inner endsClause text = some ([s], skipSpace after) := by
  rw [many_cons hitem hstart hstops hshort, many_stop hafter]
  rfl

/-- The statements of an arm. -/
def armStatements (names : List Text) (value : Expr) : List Statement :=
  if names.isEmpty then [.result value]
  else [.block [.constant ['v'] (argument 1), .result value]]

/-- An entry is compiled from its pattern, which can be copied into a literal. -/
structure Entry.Readable (entry : Entry) : Prop where
  compiled : entry.compiled = Template.compile entry.pattern
  verbatim : Verbatim (Pattern.parse entry.pattern).nodes

/-- What the template of an entry is read as. -/
def Entry.value (entry : Entry) : Expr := .template (bodyParts (Pattern.parse entry.pattern).nodes)

theorem Entry.Readable.code_eq {entry : Entry} (h : entry.Readable) :
    entry.compiled.code = code (Pattern.parse entry.pattern).nodes := by
  rw [h.compiled]
  rfl

/-- The result of an arm is read. -/
theorem Entry.Readable.statement_code {entry : Entry} (h : entry.Readable) (depth : Nat)
    {rest after : Text} (hexpression : endsExpression rest = true)
    (hend : terminated (Statement.result entry.value, rest) = some (.result entry.value, after)) :
    statement (depth + 1) ("return" ++ ' ' :: (entry.compiled.code ++ rest)) =
      some (.result entry.value, after) := by
  have hspace : skipSpace (entry.compiled.code ++ rest) = entry.compiled.code ++ rest := by
    rw [h.code_eq]
    exact skipSpace_ticked _ _
  refine statement_result depth hspace (expression_code h.verbatim ?_ hexpression) hend
  rw [skipSpace_of_isSpace rfl, hspace, h.code_eq]

/-- The block of an arm with a record is read. -/
theorem Entry.Readable.statement_block {entry : Entry} (h : entry.Readable) (depth : Nat)
    (rest : Text) :
    statement (depth + 2) ('{' :: '\n' :: (indentation 3 ++ ("const v = p[1]" ++ '\n' ::
        (indentation 3 ++ ("return" ++ ' ' :: (entry.compiled.code ++ '\n' ::
          (indentation 2 ++ '}' :: rest))))))) =
      some (.block [.constant ['v'] (argument 1), .result entry.value], rest) := by
  generalize hresultText : "return" ++ ' ' :: (entry.compiled.code ++ '\n' ::
    (indentation 2 ++ '}' :: rest)) = resultText
  have hresult : statement (depth + 1) resultText = some (.result entry.value, '}' :: rest) := by
    rw [← hresultText]
    exact h.statement_code depth rfl (terminated_brace rfl _)
  have hspace : skipSpace resultText = resultText := by
    rw [← hresultText]
    rfl
  have hconstant : statement (depth + 1)
      ("const v = p[1]" ++ '\n' :: (indentation 3 ++ resultText)) =
        some (.constant ['v'] (argument 1), resultText) := by
    rw [← hresultText]
    exact statement_constant depth rfl
  have hstops : endsBlock resultText = false := by
    rw [← hresultText]
    rfl
  have hshort : ('}' :: rest).length < resultText.length := by
    simp only [← hresultText, List.length_append, List.length_cons]
    omega
  have hclosed (body : List Statement) : closedBy '}' (body, '}' :: rest) = some (body, rest) :=
    closedBy_cons rfl (by decide) _ _
  have hbody : many (statement (depth + 1)) endsBlock
      ('\n' :: (indentation 3 ++ ("const v = p[1]" ++ '\n' :: (indentation 3 ++ resultText)))) =
        some ([.constant ['v'] (argument 1), .result entry.value], '}' :: rest) := by
    rw [many_cons hconstant rfl rfl, many_cons hresult hspace hstops hshort, many_stop rfl]
    · rfl
    · simp only [List.length_append, List.length_cons]
      omega
  rw [statement, statementWith]
  simp only [skipSpace_mark, List.mem_cons, true_or, or_true, hbody, Option.bind_some, hclosed,
    Option.map_some]

/-- What follows the label of an arm is read, up to the next clause. -/
theorem Entry.Readable.many_armBody {entry : Entry} (h : entry.Readable) (depth : Nat)
    {rest next : Text} (hrest : skipSpace rest = next) (hnext : StartsClause next) :
    many (statement (depth + 2)) endsClause (entry.armBody ++ '\n' :: rest) =
      some (armStatements entry.compiled.names entry.value, next) := by
  have hlength := length_skipSpace_le rest
  rw [hrest] at hlength
  rw [Entry.armBody, armStatements]
  split_ifs
  · have hresult := h.statement_code (depth + 1) (hnext.endsExpression hrest)
      (hnext.terminated hrest _)
    have hmany : many (statement (depth + 2)) endsClause
        (' ' :: ("return" ++ ' ' :: (entry.compiled.code ++ '\n' :: rest))) =
          some ([.result entry.value], skipSpace next) := by
      refine many_statement hresult rfl rfl ?_ ?_
      · simp only [List.length_append, List.length_cons]
        omega
      · rw [hnext.skipSpace]
        exact hnext.endsClause
    rw [hnext.skipSpace] at hmany
    simpa only [List.append_assoc, List.cons_append] using hmany
  · have hblock := h.statement_block depth ('\n' :: rest)
    have hspace : skipSpace ('\n' :: rest) = next := (skipSpace_of_isSpace rfl rest).trans hrest
    rw [← hspace] at hnext ⊢
    simp only [List.append_assoc, List.cons_append, List.nil_append]
    generalize hinside : indentation 3 ++ ("const v = p[1]" ++ '\n' :: (indentation 3 ++
      ("return" ++ ' ' :: (entry.compiled.code ++ '\n' :: (indentation 2 ++ '}' :: '\n' :: rest)))))
        = inside at hblock ⊢
    refine many_statement hblock rfl rfl ?_ hnext.endsClause
    simp only [← hinside, List.length_append, List.length_cons]
    omega

/-- The clause of an entry. -/
def Entry.clause (entry : Entry) : Clause :=
  ⟨some (.string entry.key), armStatements entry.compiled.names entry.value⟩

/-- An arm is read, up to the next clause. -/
theorem Entry.Readable.clause_arm {entry : Entry} (h : entry.Readable) (depth : Nat)
    {rest next : Text} (hrest : skipSpace rest = next) (hnext : StartsClause next) :
    Script.clause (statement (depth + 2))
        ("case" ++ ' ' :: (Text.quote entry.key ++ ':' :: (entry.armBody ++ '\n' :: rest))) =
      some (entry.clause, next) := by
  have hword : word (skipSpace ("case" ++ ' ' :: (Text.quote entry.key ++ ':' ::
      (entry.armBody ++ '\n' :: rest)))) = some (("case" : Text), ' ' :: (Text.quote entry.key ++
        ':' :: (entry.armBody ++ '\n' :: rest))) := word_skipSpace (by decide) rfl rfl
  have hlabel : expression (' ' :: (Text.quote entry.key ++ ':' ::
      (entry.armBody ++ '\n' :: rest))) =
        some (.string entry.key, ':' :: (entry.armBody ++ '\n' :: rest)) := by
    refine expression_quote ?_ (by simp [endsExpression])
    rw [skipSpace_of_isSpace rfl, skipSpace_quote]
  have hclosed : closedBy ':' (Expr.string entry.key, ':' :: (entry.armBody ++ '\n' :: rest)) =
      some (Expr.string entry.key, entry.armBody ++ '\n' :: rest) :=
    closedBy_cons rfl (by decide) _ _
  rw [Script.clause, hword, Option.bind_some]
  simp only [if_true, hlabel, Option.bind_some, hclosed, h.many_armBody depth hrest hnext,
    Option.map_some]
  rfl

/-- What the function returns for a key that is not known. -/
def missing : Expr := .template (.hole "MISSING " (argument 0) (.last []))

theorem expression_missing {text rest : Text}
    (htext : skipSpace text = Text.ticked "MISSING $\x7bp[0]\x7d" ++ rest)
    (hend : endsExpression rest = true) : expression text = some (missing, rest) := by
  have hlength := length_skipSpace_le text
  rw [htext] at hlength
  refine expression_ticked htext ?_ hend
  have hvalue : below text.length ("p[0]\x7d" ++ '`' :: rest) =
      some (argument 0, '}' :: '`' :: rest) := by
    rw [below_of_lt]
    · exact expression_argument (.inl ⟨rfl, rfl⟩) rfl (by simp [endsExpression])
    · simp [Text.ticked] at hlength ⊢
      omega
  have hhole : parts (below text.length) ('$' :: '{' :: ("p[0]\x7d" ++ '`' :: rest)) =
      some (.hole [] (argument 0) (.last []), rest) := by
    rw [parts_hole hvalue (by simp), parts_tick]
    rfl
  have hfree : HoleFree (("MISSING " : Text) ++ ['$']) := holeFree_of_not_mem (.inr rfl) (by decide)
  have hparts := @parts_append (below text.length) "MISSING "
    ('$' :: '{' :: ("p[0]\x7d" ++ '`' :: rest)) (by simp) hfree
  rw [hhole] at hparts
  exact hparts

/-- The default clause. -/
def defaultClause : Clause := ⟨none, [.result missing]⟩

/-- The default clause is read, up to the brace after it. -/
theorem clause_default (depth : Nat) {rest after : Text} (hrest : skipSpace rest = '}' :: after) :
    clause (statement (depth + 1)) ("default: return `MISSING $\x7bp[0]\x7d`" ++ '\n' :: rest) =
      some (defaultClause, '}' :: after) := by
  have hspace : skipSpace ('\n' :: rest) = '}' :: after :=
    (skipSpace_of_isSpace rfl rest).trans hrest
  have hend : endsExpression ('\n' :: rest) = true := by
    rw [endsExpression, hspace]
    rfl
  have hword : word (skipSpace ("default: return `MISSING $\x7bp[0]\x7d`" ++ '\n' :: rest)) =
      some (("default" : Text), ": return `MISSING $\x7bp[0]\x7d`" ++ '\n' :: rest) :=
    word_skipSpace (by decide) rfl rfl
  have hmark : mark ":" (": return `MISSING $\x7bp[0]\x7d`" ++ '\n' :: rest) =
      some (" return `MISSING $\x7bp[0]\x7d`" ++ '\n' :: rest) := mark_append rfl
  have hresult : statement (depth + 1)
      ("return" ++ ' ' :: ("`MISSING $\x7bp[0]\x7d`" ++ '\n' :: rest)) =
        some (.result missing, '}' :: after) :=
    statement_result depth rfl (expression_missing rfl hend) (terminated_brace hspace _)
  have hbody : many (statement (depth + 1)) endsClause
      (" return `MISSING $\x7bp[0]\x7d`" ++ '\n' :: rest) =
        some ([.result missing], '}' :: after) := by
    refine many_statement hresult rfl rfl ?_ rfl
    have hlength := length_skipSpace_le rest
    rw [hrest] at hlength
    simp only [List.length_append, List.length_cons] at hlength ⊢
    omega
  rw [clause, hword, Option.bind_some]
  simp only [hmark, hbody, Option.bind_some, Option.map_some]
  rfl

theorem startsClause_armsText (entries : List Entry) :
    StartsClause (skipSpace (armsText entries defaultText)) := by
  cases entries with
  | nil => exact ⟨"default", _, .inr rfl, rfl, rfl⟩
  | cons entry entries => exact ⟨"case", _, .inl rfl, rfl, rfl⟩

/-- All clauses are read, up to the brace after them. -/
theorem many_clauses (depth : Nat) {entries : List Entry} (h : ∀ entry ∈ entries, entry.Readable)
    {text : Text} (htext : skipSpace text = skipSpace (armsText entries defaultText)) :
    many (clause (statement (depth + 2))) endsBlock text =
      some (entries.map Entry.clause ++ [defaultClause], '}' :: ('\n' :: ("\x7d" ++ ['\n']))) := by
  induction entries generalizing text with
  | nil =>
    have hdefault := @clause_default (depth + 1)
      (indentation 1 ++ ("\x7d" ++ '\n' :: ("\x7d" ++ ['\n']))) _ rfl
    rw [many_cons hdefault htext rfl (by decide), many_stop rfl]
    rfl
  | cons entry entries ih =>
    have hentry := h entry List.mem_cons_self
    have hnext := startsClause_armsText entries
    have harm := hentry.clause_arm depth rfl hnext
    have hlength := length_skipSpace_le (armsText entries defaultText)
    rw [many_cons harm htext rfl, ih (fun other hmem => h other (List.mem_cons_of_mem _ hmem))
      hnext.skipSpace]
    · rfl
    · simp only [List.length_append, List.length_cons]
      omega

/-- The body of the function. -/
def functionBody (entries : List Entry) : List Statement :=
  [.switch (argument 0) (entries.map Entry.clause ++ [defaultClause])]

theorem switchWith_clauses (depth : Nat) {entries : List Entry}
    (h : ∀ entry ∈ entries, entry.Readable) :
    switchWith (statement (depth + 2)) (" (p[0]) \x7b" ++ '\n' :: armsText entries defaultText) =
      some (.switch (argument 0) (entries.map Entry.clause ++ [defaultClause]),
        '\n' :: ("\x7d" ++ ['\n'])) := by
  generalize htext : '\n' :: armsText entries defaultText = text
  have hclauses : many (clause (statement (depth + 2))) endsBlock text =
      some (entries.map Entry.clause ++ [defaultClause], '}' :: '\n' :: ("\x7d" ++ ['\n'])) := by
    refine many_clauses depth h ?_
    rw [← htext, skipSpace_of_isSpace rfl]
  have hsubject : expression ("p[0]) \x7b" ++ text) = some (argument 0, ") \x7b" ++ text) :=
    expression_argument (.inl ⟨rfl, rfl⟩) rfl (by simp [endsExpression])
  have hleft : mark "(" (" (p[0]) \x7b" ++ text) = some ("p[0]) \x7b" ++ text) := mark_append rfl
  have hright : closedBy ')' (argument 0, ") \x7b" ++ text) = some (argument 0, " \x7b" ++ text) :=
    closedBy_cons rfl (by decide) _ _
  have hopen : mark "\x7b" (" \x7b" ++ text) = some text := mark_append rfl
  have hclose (clauses : List Clause) : closedBy '}' (clauses, '}' :: '\n' :: ("\x7d" ++ ['\n'])) =
      some (clauses, '\n' :: ("\x7d" ++ ['\n'])) := closedBy_cons rfl (by decide) _ _
  have hcount : ((entries.map Entry.clause ++ [defaultClause]).countP fun clause =>
      clause.label.isNone) ≤ 1 := by
    have hlabels : (entries.map Entry.clause).countP (fun clause => clause.label.isNone) = 0 := by
      simp [List.countP_eq_zero, Entry.clause]
    rw [List.countP_append, hlabels]
    exact Nat.le_refl 1
  rw [switchWith, hleft, Option.bind_some, hsubject, Option.bind_some, hright, Option.bind_some]
  simp only [hopen, Option.bind_some, hclauses, hclose, if_pos hcount]

theorem statement_switch (depth : Nat) {entries : List Entry}
    (h : ∀ entry ∈ entries, entry.Readable) :
    statement (depth + 3) ("switch (p[0]) \x7b" ++ '\n' :: armsText entries defaultText) =
      some (.switch (argument 0) (entries.map Entry.clause ++ [defaultClause]),
        '\n' :: ("\x7d" ++ ['\n'])) := by
  have hswitch := switchWith_clauses depth h
  generalize '\n' :: armsText entries defaultText = text at hswitch ⊢
  rw [@statement_word "switch" _ (" (p[0]) \x7b" ++ text) (by decide) rfl rfl, statementAfter,
    if_neg (by decide), if_neg (by decide), if_pos rfl, hswitch]

/-- The body of the function is read. -/
theorem many_functionBody (depth : Nat) {entries : List Entry}
    (h : ∀ entry ∈ entries, entry.Readable) :
    many (statement (depth + 3)) endsBlock
        ('\n' :: (indentation 1 ++
          ("switch (p[0]) \x7b" ++ '\n' :: armsText entries defaultText))) =
      some (functionBody entries, "\x7d" ++ ['\n']) := by
  have hswitch := statement_switch depth h
  generalize htext : '\n' :: armsText entries defaultText = text at hswitch ⊢
  have hlength : ('\n' :: (("\x7d" : Text) ++ ['\n'])).length <
      ("switch (p[0]) \x7b" ++ text).length := by
    simp
  rw [many_cons hswitch rfl rfl hlength, many_stop rfl]
  rfl

/-- The head of the function is read. -/
theorem functionHead_translate (depth : Nat) (rest : Text) :
    functionHead (depth + 1) (" translate = (...p: Props): string => \x7b" ++ rest) =
      some (⟨"translate", "p", .name "Props", .name "string"⟩, rest) := by
  have hname : identifier (" translate = (...p: Props): string => \x7b" ++ rest) =
      some (("translate" : Text), " = (...p: Props): string => \x7b" ++ rest) :=
    identifier_append (by decide) rfl rfl (by decide)
  have hequal : closedBy '=' (("translate" : Text), " = (...p: Props): string => \x7b" ++ rest) =
      some (("translate" : Text), " (...p: Props): string => \x7b" ++ rest) := rfl
  have hleft : mark "(" (" (...p: Props): string => \x7b" ++ rest) =
      some ("...p: Props): string => \x7b" ++ rest) := mark_append rfl
  have hdots : mark "..." ("...p: Props): string => \x7b" ++ rest) =
      some ("p: Props): string => \x7b" ++ rest) := mark_append rfl
  have hparameter : labelled identifier (shape (depth + 1)) ("p: Props): string => \x7b" ++ rest) =
      some ((("p" : Text), .name "Props"), "): string => \x7b" ++ rest) := by
    have htype : shape (depth + 1) (" Props): string => \x7b" ++ rest) =
        some (.name "Props", "): string => \x7b" ++ rest) :=
      shape_name (by decide) rfl rfl (by decide) depth
    exact labelled_append (identifier_append (by decide) rfl rfl (by decide)) htype
  have hright : mark ")" ("): string => \x7b" ++ rest) = some (": string => \x7b" ++ rest) :=
    mark_append rfl
  have hcolon : mark ":" (": string => \x7b" ++ rest) = some (" string => \x7b" ++ rest) :=
    mark_append rfl
  have hresult : shape (depth + 1) (" string => \x7b" ++ rest) =
      some (.name "string", " => \x7b" ++ rest) := shape_name (by decide) rfl rfl (by decide) depth
  have hline : ¬ crossesLine (" => \x7b" ++ rest) = true := by
    have hspace := @crossesLine_eq_false ("=> \x7b" ++ rest) rfl
    simpa using hspace.2
  have harrow : mark "=>" (" => \x7b" ++ rest) = some (" \x7b" ++ rest) := mark_append rfl
  have hbrace : mark "\x7b" (" \x7b" ++ rest) = some rest := mark_append rfl
  rw [functionHead, hname, Option.bind_some, hequal, Option.bind_some]
  simp only [hleft, hdots, Option.bind_some, hparameter, hright, hcolon, hresult, if_neg hline,
    harrow, hbrace, Option.map_some]

/-- The declaration of a function is read if its head and its body are. -/
theorem declaration_const {depth : Nat} {text inside rest : Text} {head : FunctionHead}
    {body : List Statement} (hhead : functionHead depth text = some (head, inside))
    (hbody : (many (statement depth) endsBlock inside).bind (closedBy '}') = some (body, rest))
    (hend : endsName text = true) :
    declaration depth ("export const" ++ text) = terminated (head.withBody body, rest) := by
  have hexport : word (skipSpace ("export const" ++ text)) =
      some (("export" : Text), " const" ++ text) := word_skipSpace (by decide) rfl rfl
  have hconst : word (skipSpace (" const" ++ text)) = some (("const" : Text), text) :=
    word_skipSpace (by decide) hend rfl
  have hkind : ("const" : Text) ≠ "type" := by decide
  rw [declaration, hexport, Option.bind_some]
  dsimp only
  rw [if_pos rfl, hconst, Option.bind_some]
  dsimp only
  rw [if_neg hkind, if_pos rfl, hhead, Option.bind_some]
  dsimp only
  rw [hbody, Option.bind_some]

/-- The declaration of the function is read to the end. -/
theorem declaration_function (depth : Nat) {entries : List Entry}
    (h : ∀ entry ∈ entries, entry.Readable) :
    declaration (depth + 3) (functionText entries) =
      some (.function "translate" ⟨"p", .name "Props", .name "string", functionBody entries⟩,
        []) := by
  have hsplit : ("export const translate = (...p: Props): string => \x7b" : Text) =
      "export const" ++ " translate = (...p: Props): string => \x7b" := rfl
  have hbody : (many (statement (depth + 3)) endsBlock ('\n' :: (indentation 1 ++
      ("switch (p[0]) \x7b" ++ '\n' :: armsText entries defaultText)))).bind (closedBy '}') =
        some (functionBody entries, ['\n']) := by
    rw [many_functionBody depth h, Option.bind_some]
    rfl
  generalize htext : '\n' :: (indentation 1 ++ ("switch (p[0]) \x7b" ++ '\n' ::
    armsText entries defaultText)) = inside at hbody
  have hdeclaration := declaration_const (functionHead_translate (depth + 2) inside) hbody rfl
  have hfunction : functionText entries =
      "export const" ++ (" translate = (...p: Props): string => \x7b" ++ inside) := by
    rw [← htext]
    exact (congrArg (fun text => text ++ _) hsplit).trans (List.append_assoc _ _ _)
  rw [hfunction]
  exact hdeclaration

/-- What the module of entries is read as. -/
def moduleOf (entries : List Entry) : Module :=
  [.shape "Props" (propsShape entries),
    .function "translate" ⟨"p", .name "Props", .name "string", functionBody entries⟩]

theorem skipSpace_moduleText (store : Store) :
    skipSpace store.moduleText = propsText store.entries ('\n' :: functionText store.entries) := by
  rw [moduleText_eq]
  generalize '\n' :: functionText store.entries = rest
  cases store.entries <;> rfl

theorem length_le_shapesText (entries : List Entry) (rest : Text) :
    rest.length ≤ (shapesText entries rest).length := by
  induction entries with
  | nil => exact Nat.le_refl _
  | cons entry entries ih =>
    simp only [shapesText, List.length_append, List.length_cons]
    omega

theorem length_le_propsText (entries : List Entry) (rest : Text) :
    rest.length + 3 ≤ (propsText entries rest).length := by
  have hshapes := length_le_shapesText entries rest
  have hempty : ("export type Props = never" : Text).length = 25 := rfl
  have hunion : ("export type Props =" : Text).length = 19 := rfl
  rw [propsText]
  split_ifs <;> simp only [List.length_append, List.length_cons] <;> omega

/-- The module of a store is read as a type and a function. -/
theorem readModule?_moduleText {store : Store} (h : ∀ entry ∈ store.entries, entry.Readable) :
    readModule? store.moduleText = some (moduleOf store.entries) := by
  have hspace := skipSpace_moduleText store
  have hshort := length_le_propsText store.entries ('\n' :: functionText store.entries)
  have hlength := length_skipSpace_le store.moduleText
  rw [hspace] at hlength
  -- The reader may go as deep as the text is long, and three levels are enough.
  obtain ⟨depth, hdepth⟩ : ∃ depth, store.moduleText.length = depth + 3 :=
    Nat.exists_eq_add_of_le' (by omega)
  have hprops : declaration (depth + 3)
      (propsText store.entries ('\n' :: functionText store.entries)) =
        some (.shape "Props" (propsShape store.entries), functionText store.entries) :=
    declaration_props depth store.entries rfl
  have hfunction := declaration_function depth h
  have hnonempty :
      (propsText store.entries ('\n' :: functionText store.entries)).isEmpty = false := by
    rw [List.isEmpty_eq_false_iff, ← List.length_pos_iff]
    omega
  have hmany : many (declaration (depth + 3)) List.isEmpty store.moduleText =
      some (moduleOf store.entries, []) := by
    rw [many_cons hprops hspace hnonempty, many_cons hfunction rfl rfl, many_stop rfl]
    · rfl
    · exact List.length_pos_iff.mpr (List.append_ne_nil_of_left_ne_nil (by decide) _)
    · rw [List.length_cons] at hshort
      omega
  have hnodup : ((moduleOf store.entries).map Declaration.name).Nodup := by
    have hnames : [("Props" : Text), "translate"].Nodup := by decide
    exact hnames
  rw [readModule?, hdepth, hmany, Option.bind_some]
  exact if_pos hnodup

end Phrasebook.Catalog
