import Phrasebook.Proofs.Script.Program
import Phrasebook.Proofs.Script.Spelling

/-!
# Reading programs of scripts

A reader for the modules of `Phrasebook.Proofs.Script.Program`. Like the reader of expressions it
is cautious: what it accepts, it reads as TypeScript does. A statement without a semicolon ends in
front of a closing brace, at the end of the text, or at the end of a line if the next line starts
with a word that can only start a statement or a clause.
-/

namespace Phrasebook.Script

/-! ### Tokens and repetitions -/

/-- What follows a symbol. -/
def mark (spelling text : Text) : Option Text := symbol spelling (skipSpace text)

/-- A name that can be bound. -/
def identifier (text : Text) : Option (Text × Text) :=
  (word (skipSpace text)).bind fun (name, rest) =>
    if String.ofList name ∈ reserved then none else some (name, rest)

/-- Whether a line ends before the next token. -/
def crossesLine (text : Text) : Bool :=
  (text.take (text.length - (skipSpace text).length)).any isLineEnd

/-- Items up to where they stop. -/
def many {α : Type} (item : Text → Option (α × Text)) (stops : Text → Bool) (text : Text) :
    Option (List α × Text) :=
  if stops (skipSpace text) then some ([], skipSpace text)
  else
    (item (skipSpace text)).bind fun (first, after) =>
      if after.length < text.length then
        (many item stops after).map fun (more, rest) => (first :: more, rest)
      else none
termination_by text.length

/-- One or more items with a mark between each two of them. -/
def separated {α : Type} (separator : Char) (item : Text → Option (α × Text)) (text : Text) :
    Option (List α × Text) :=
  (item text).bind fun (first, after) =>
    match mark [separator] after with
    | none => some ([first], after)
    | some next =>
      if (skipSpace next).length < text.length then
        (separated separator item (skipSpace next)).map fun (more, rest) => (first :: more, rest)
      else none
termination_by text.length

/-! ### Types -/

/-- A label and a type after a colon. -/
def labelled {α : Type} (label : Text → Option (α × Text)) (inner : Text → Option (Shape × Text))
    (text : Text) : Option ((α × Shape) × Text) :=
  ((label text).bind (closedBy ':')).bind fun (name, rest) =>
    (inner rest).map fun (shape, rest) => ((name, shape), rest)

/-- The name of a property, with or without quotes. -/
def propertyName (text : Text) : Option (Text × Text) :=
  match skipSpace text with
  | '"' :: rest => quoted '"' rest
  | text => word text

/-- A type other than a union, with `inner` to read the types inside of it. -/
def shapeWith (inner : Text → Option (Shape × Text)) (text : Text) : Option (Shape × Text) :=
  match skipSpace text with
  | '"' :: rest => (quoted '"' rest).map fun (value, rest) => (.literal value, rest)
  | '[' :: rest =>
    ((separated ',' (labelled identifier inner) rest).bind (closedBy ']')).map
      fun (items, rest) => (.tuple items, rest)
  | '{' :: rest =>
    ((separated ';' (labelled propertyName inner) rest).bind (closedBy '}')).map
      fun (fields, rest) => (.record fields, rest)
  | text => (identifier text).map fun (name, rest) => (.name name, rest)

/-- A type other than a union, with at most `depth` types inside of each other. -/
def shape : (depth : Nat) → Text → Option (Shape × Text)
  | 0, _ => none
  | depth + 1, text => shapeWith (shape depth) text

/-- A type. A bar can stand in front of the first alternative of a union. -/
def union (depth : Nat) (text : Text) : Option (Shape × Text) :=
  match skipSpace text with
  | '|' :: rest =>
    (separated '|' (shape depth) (skipSpace rest)).map
      fun (alternatives, rest) => (.union alternatives, rest)
  | text =>
    (separated '|' (shape depth) text).map fun
      | ([alone], rest) => (alone, rest)
      | (alternatives, rest) => (.union alternatives, rest)

/-! ### Statements -/

/-- The words that a statement, a clause or a declaration starts with. -/
def startingWords : List String := ["case", "const", "default", "export", "return", "switch"]

/-- What was read, if a statement can end after it, and what follows. -/
def terminated {α : Type} : α × Text → Option (α × Text)
  | (value, rest) =>
    match skipSpace rest with
    | [] => some (value, [])
    | ';' :: after => some (value, after)
    | '}' :: after => some (value, '}' :: after)
    | after =>
      if crossesLine rest && (word after).any fun (first, _) => String.ofList first ∈ startingWords
      then some (value, after)
      else none

/-- Whether a block ends here. -/
def endsBlock (text : Text) : Bool := text.head? == some '}'

/-- Whether a clause ends here. -/
def endsClause (text : Text) : Bool :=
  endsBlock text || (word text).any fun (first, _) => first = "case" || first = "default"

/-- A clause of a switch, with `inner` to read its statements. -/
def clause (inner : Text → Option (Statement × Text)) (text : Text) : Option (Clause × Text) :=
  (word (skipSpace text)).bind fun (first, rest) =>
    if first = "case" then
      ((expression rest).bind (closedBy ':')).bind fun (label, rest) =>
        (many inner endsClause rest).map fun (body, rest) => (⟨some label, body⟩, rest)
    else if first = "default" then
      (mark ":" rest).bind fun rest =>
        (many inner endsClause rest).map fun (body, rest) => (⟨none, body⟩, rest)
    else none

/-- A switch after its keyword, with at most one default clause. -/
def switchWith (inner : Text → Option (Statement × Text)) (text : Text) :
    Option (Statement × Text) :=
  (((mark "(" text).bind expression).bind (closedBy ')')).bind fun (subject, rest) =>
    (((mark "\x7b" rest).bind (many (clause inner) endsBlock)).bind (closedBy '}')).bind
      fun (clauses, rest) =>
        if (clauses.countP fun clause => clause.label.isNone) ≤ 1 then
          some (.switch subject clauses, rest)
        else none

/-- A constant after its keyword. -/
def constant (text : Text) : Option (Statement × Text) :=
  ((identifier text).bind (closedBy '=')).bind fun (name, rest) =>
    (expression rest).map fun (value, rest) => (.constant name value, rest)

/-- A statement after its first word. No line ends between the keyword and the result of a
function. -/
def statementAfter (inner : Text → Option (Statement × Text)) (first rest : Text) :
    Option (Statement × Text) :=
  if first = "const" then (constant rest).bind terminated
  else if first = "return" then
    if crossesLine rest then none
    else ((expression rest).map fun (value, rest) => (.result value, rest)).bind terminated
  else if first = "switch" then switchWith inner rest
  else none

/-- A statement, with `inner` to read the statements inside of it. -/
def statementWith (inner : Text → Option (Statement × Text)) (text : Text) :
    Option (Statement × Text) :=
  match skipSpace text with
  | '{' :: rest =>
    ((many inner endsBlock rest).bind (closedBy '}')).map fun (body, rest) => (.block body, rest)
  | text => (word text).bind fun (first, rest) => statementAfter inner first rest

/-- A statement, with at most `depth` statements inside of each other. -/
def statement : (depth : Nat) → Text → Option (Statement × Text)
  | 0, _ => none
  | depth + 1, text => statementWith (statement depth) text

/-! ### Modules -/

/-- The head of a function. -/
structure FunctionHead where
  name : Text
  parameter : Text
  parameterShape : Shape
  resultShape : Shape

/-- A function with a head and a body. -/
def FunctionHead.withBody (head : FunctionHead) (body : List Statement) : Declaration :=
  .function head.name ⟨head.parameter, head.parameterShape, head.resultShape, body⟩

/-- The head of a function, from its name to the brace of its body. No line ends before the
arrow. -/
def functionHead (depth : Nat) (text : Text) : Option (FunctionHead × Text) :=
  ((identifier text).bind (closedBy '=')).bind fun (name, rest) =>
    (((mark "(" rest).bind (mark "...")).bind (labelled identifier (shape depth))).bind
      fun ((parameter, parameterShape), rest) =>
        (((mark ")" rest).bind (mark ":")).bind (shape depth)).bind fun (resultShape, rest) =>
          if crossesLine rest then none
          else ((mark "=>" rest).bind (mark "\x7b")).map fun rest =>
            (⟨name, parameter, parameterShape, resultShape⟩, rest)

/-- An exported declaration. -/
def declaration (depth : Nat) (text : Text) : Option (Declaration × Text) :=
  (word (skipSpace text)).bind fun (first, rest) =>
    if first = "export" then
      (word (skipSpace rest)).bind fun (kind, rest) =>
        if kind = "type" then
          ((identifier rest).bind (closedBy '=')).bind fun (name, rest) =>
            ((union depth rest).map fun (shape, rest) => (.shape name shape, rest)).bind terminated
        else if kind = "const" then
          (functionHead depth rest).bind fun (head, rest) =>
            ((many (statement depth) endsBlock rest).bind (closedBy '}')).bind fun (body, rest) =>
              terminated (head.withBody body, rest)
        else none
    else none

/-- The module that a whole text is. Its declarations have different names. -/
def readModule? (text : Text) : Option Module :=
  (many (declaration text.length) List.isEmpty text).bind fun (declarations, _) =>
    if (declarations.map Declaration.name).Nodup then some declarations else none

/-! ### Space that is skipped -/

theorem length_skipSpace_le (text : Text) : (skipSpace text).length ≤ text.length :=
  (skipSpace_suffix text).length_le

/-- A line feed in front of a token is crossed. -/
theorem crossesLine_lineFeed (rest : Text) : crossesLine ('\n' :: rest) = true := by
  have hspace : skipSpace ('\n' :: rest) = skipSpace rest := skipSpace_of_isSpace rfl rest
  have hlength := length_skipSpace_le rest
  rw [crossesLine, hspace, List.length_cons,
    Nat.succ_sub hlength, List.take_succ_cons, List.any_cons]
  rfl

/-- No line ends in front of a token, or in a space in front of one. -/
theorem crossesLine_eq_false {text : Text} (h : skipSpace text = text) :
    crossesLine text = false ∧ crossesLine (' ' :: text) = false := by
  have hspace : skipSpace (' ' :: text) = text := (skipSpace_of_isSpace rfl text).trans h
  constructor
  · simp [crossesLine, h]
  · simp [crossesLine, hspace, isLineEnd]

/-! ### Repetitions that are read -/

section Repetitions

variable {α : Type} {item : Text → Option (α × Text)}

theorem many_stop {stops : Text → Bool} {text : Text} (h : stops (skipSpace text) = true) :
    many item stops text = some ([], skipSpace text) := by
  rw [many, if_pos h]

theorem many_cons {stops : Text → Bool} {text start after : Text} {first : α}
    (hitem : item start = some (first, after)) (hstart : skipSpace text = start)
    (hstops : stops start = false) (hshort : after.length < start.length) :
    many item stops text =
      (many item stops after).map fun (more, rest) => (first :: more, rest) := by
  have hlength := length_skipSpace_le text
  rw [hstart] at hlength
  rw [many, hstart, if_neg (by simp [hstops]), hitem, Option.bind_some]
  exact if_pos (by omega)

theorem separated_last {separator : Char} {text after : Text} {last : α}
    (hitem : item text = some (last, after)) (hmark : mark [separator] after = none) :
    separated separator item text = some ([last], after) := by
  rw [separated, hitem, Option.bind_some]
  simp only [hmark]

theorem separated_cons {separator : Char} {text after next start : Text} {first : α}
    (hitem : item text = some (first, after)) (hmark : mark [separator] after = some next)
    (hstart : skipSpace next = start) (hshort : start.length < text.length) :
    separated separator item text =
      (separated separator item start).map fun (more, rest) => (first :: more, rest) := by
  rw [separated, hitem, Option.bind_some]
  simp only [hmark, hstart, if_pos hshort]

end Repetitions

/-! ### Tokens that are read -/

theorem mark_append {spelling : Text} {text rest : Text} (h : skipSpace text = spelling ++ rest) :
    mark spelling text = some rest := by
  rw [mark, h, symbol_append]

section Words

variable {name text rest : Text} (hname : Template.isIdentifier name = true)
  (hend : endsName rest = true) (htext : skipSpace text = name ++ rest)

include hname hend htext

theorem word_skipSpace : word (skipSpace text) = some (name, rest) := by
  rw [htext, word_of_isIdentifier hname hend]

theorem identifier_append (hfree : String.ofList name ∉ reserved) :
    identifier text = some (name, rest) := by
  rw [identifier, word_skipSpace hname hend htext, Option.bind_some]
  exact if_neg hfree

/-- A statement that starts with a word is read after that word. -/
theorem statement_word (depth : Nat) :
    statement (depth + 1) text = statementAfter (statement depth) name rest := by
  rw [statement, statementWith, htext]
  split
  · next more hmark => exact absurd hmark (ne_cons_of_isIdentifier hname rfl _ _)
  · rw [word_of_isIdentifier hname hend]
    rfl

/-- The name of a type is read. -/
theorem shape_name (hfree : String.ofList name ∉ reserved) (depth : Nat) :
    shape (depth + 1) text = some (.name name, rest) := by
  have hspace : skipSpace (name ++ rest) = name ++ rest := skipSpace_of_isIdentifier hname rest
  have hidentifier := identifier_append hname hend hspace hfree
  rw [shape, shapeWith, htext]
  split
  · next more hmark => exact absurd hmark (ne_cons_of_isIdentifier hname rfl _ _)
  · next more hmark => exact absurd hmark (ne_cons_of_isIdentifier hname rfl _ _)
  · next more hmark => exact absurd hmark (ne_cons_of_isIdentifier hname rfl _ _)
  · rw [hidentifier, Option.map_some]

/-- A property name without quotes is read. -/
theorem propertyName_append : propertyName text = some (name, rest) := by
  rw [propertyName, htext]
  split
  · next more hmark => exact absurd hmark (ne_cons_of_isIdentifier hname rfl _ _)
  · exact word_of_isIdentifier hname hend

end Words

/-- A quoted text is read as the type of that text. -/
theorem shape_quote (depth : Nat) {text key rest : Text}
    (htext : skipSpace text = Text.quote key ++ rest) :
    shape (depth + 1) text = some (.literal key, rest) := by
  rw [shape, shapeWith, htext]
  simp [Text.quote, quoted_flatMap_escape]

/-- The name of a property of a record type is read back. -/
theorem propertyName_property (name rest : Text) (hend : endsName rest = true) :
    propertyName (Template.property name ++ rest) = some (name, rest) := by
  rw [Template.property]
  split_ifs with hname
  · exact propertyName_append hname hend (skipSpace_of_isIdentifier hname rest)
  · simp [propertyName, Text.quote, quoted_flatMap_escape]

/-! ### Ends of statements -/

/-- A statement ends in front of a closing brace. -/
theorem terminated_brace {α : Type} {rest after : Text} (h : skipSpace rest = '}' :: after)
    (value : α) : terminated (value, rest) = some (value, '}' :: after) := by
  simp [terminated, h]

/-- A statement ends at the end of a line in front of a word that starts a statement. -/
theorem terminated_word {α : Type} {name rest after : Text}
    (hname : String.ofList name ∈ startingWords) (hafter : endsName after = true)
    (h : skipSpace rest = name ++ after) (value : α) :
    terminated (value, '\n' :: rest) = some (value, name ++ after) := by
  have hspace : skipSpace ('\n' :: rest) = name ++ after := (skipSpace_of_isSpace rfl rest).trans h
  have hidentifier : Template.isIdentifier name = true := by
    have hwords : ∀ w ∈ startingWords, Template.isIdentifier w.toList = true := by decide
    simpa using hwords _ hname
  rw [terminated, hspace]
  split
  · next hempty =>
    obtain ⟨rfl, -⟩ := List.append_eq_nil_iff.mp hempty
    simp [Template.isIdentifier] at hidentifier
  · next more hmark => exact absurd hmark (ne_cons_of_isIdentifier hidentifier rfl _ _)
  · next more hmark => exact absurd hmark (ne_cons_of_isIdentifier hidentifier rfl _ _)
  · rw [crossesLine_lineFeed, word_of_isIdentifier hidentifier hafter]
    exact if_pos (by simpa using hname)

end Phrasebook.Script
