import Phrasebook.Command.Config
import Phrasebook.Proofs.Script.ProgramReader
import Phrasebook.Proofs.Template.Meaning
import Phrasebook.Proofs.Text.Basic
import Phrasebook.Proofs.Text.Fields
import Phrasebook.Proofs.Text.Lines

/-!
# What a provider imports

A provider imports the parameter type of every language under a name that is made from the
language: letters and digits of ASCII become capitals, and every other character becomes an
underscore. Files are told apart by the whole name of a language in lower case. So two languages can
have files of their own and still share a name, such as `a-b` and `a_b`, and then the provider
imports that name twice.

A provider is read line by line. The lines that import types, the union of these types and the cases
of the language switch are read as TypeScript reads them.

## Main definitions

* `Provider.Alike`: two languages share a name.
* `Provider.importOf?`, `Provider.unionOf?`, `Provider.caseOf?`, `Provider.loadOf?`: what a line of
  a provider says.
* `Provider.casesOf`: the cases of the language switch.

## Main results

* `Provider.propsName_eq_iff`: languages share a name if and only if they are alike.
* `Provider.lines?_moduleText`: the lines of a provider.
* `Provider.imports_nodup_iff`: what a provider imports, and when it imports no name twice.
-/

namespace Phrasebook

namespace Provider

open Layout Script

/-! ### Names -/

/-- Two characters look the same in a name: they are the same letter or digit of ASCII up to case,
or neither of them is a letter or a digit of ASCII. -/
def SameMark (c d : Char) : Prop :=
  c.isAlphanum = d.isAlphanum ∧ (c.isAlphanum = true → c.toUpper = d.toUpper)

instance : DecidableRel SameMark := fun _ _ => inferInstanceAs (Decidable (_ ∧ _))

/-- Two languages are alike if they look the same, character by character. -/
def Alike (a b : Text) : Prop := List.Forall₂ SameMark a b

instance : DecidableRel Alike := fun _ _ => inferInstanceAs (Decidable (List.Forall₂ _ _ _))

theorem nameChar_eq_iff {c d : Char} : nameChar c = nameChar d ↔ SameMark c d := by
  have hmark (e : Char) (he : e.isAlphanum = true) : e.toUpper ≠ '_' := by
    intro hsame
    have hupper := Text.isAlphanum_toUpper he
    rw [hsame] at hupper
    exact absurd hupper (by decide)
  rw [nameChar, nameChar, SameMark]
  cases hc : c.isAlphanum <;> cases hd : d.isAlphanum
  · simp
  · simpa using (hmark d hd).symm
  · simpa using hmark c hc
  · simp

/-- Languages share a name if and only if they are alike. -/
theorem propsName_eq_iff {a b : Text} : propsName a = propsName b ↔ Alike a b :=
  calc propsName a = propsName b
    _ ↔ a.map nameChar = b.map nameChar := by
      unfold propsName
      rw [List.append_cancel_left_eq]
    _ ↔ List.Forall₂ (· = ·) (a.map nameChar) (b.map nameChar) := by
      rw [List.forall₂_eq_eq_eq]
    _ ↔ List.Forall₂ (fun c d => nameChar c = nameChar d) a b := by
      rw [List.forall₂_map_left_iff, List.forall₂_map_right_iff]
    _ ↔ Alike a b := by
      simp only [nameChar_eq_iff]
      exact Iff.rfl

theorem isIdentifier_propsName (language : Text) :
    Template.isIdentifier (propsName language) = true := by
  have hpart (c : Char) : Template.isIdentifierPart (nameChar c) = true := by
    rw [nameChar]
    split_ifs with hc
    · simp [Template.isIdentifierPart, Text.isAlphanum_toUpper hc]
    · rfl
  have hrest : (language.map nameChar).all Template.isIdentifierPart = true := by
    simp [hpart]
  have hname : propsName language = 'P' :: ("rops".toList ++ language.map nameChar) := rfl
  rw [hname, Template.isIdentifier, List.all_append, hrest]
  rfl

/-- No word that TypeScript keeps for itself starts like the name of a language. -/
theorem propsName_not_mem_reserved (language : Text) :
    String.ofList (propsName language) ∉ reserved := by
  intro hmem
  have hhead : ∀ w ∈ reserved, w.toList.head? ≠ some 'P' := by decide
  exact hhead _ hmem (by rw [String.toList_ofList]; rfl)

/-! ### Readers of lines -/

/-- What follows a certain word. -/
def keyword (name text : Text) : Option Text :=
  (word (skipSpace text)).bind fun (first, rest) => if first = name then some rest else none

/-- A string literal. -/
def stringLiteral (text : Text) : Option (Text × Text) := (mark "\"" text).bind (quoted '"')

/-- A template literal without substitutions. -/
def plainTemplate (text : Text) : Option (Text × Text) :=
  ((mark "`" text).bind (parts expression)).bind fun
    | (.last inside, rest) => some (inside, rest)
    | _ => none

/-- What was read, if the line ends after it. -/
def atEnd {α : Type} (value : α) (rest : Text) : Option α :=
  if (skipSpace rest).isEmpty then some value else none

/-- The name that a line gives to an imported parameter type, and where it is imported from. -/
def importOf? (line : Text) : Option (Text × Text) := do
  let rest ← (keyword "import" line).bind (mark "\x7b")
  let (name, rest) ← ((keyword "Props" rest).bind (keyword "as")).bind identifier
  let (source, rest) ← ((mark "\x7d" rest).bind (keyword "from")).bind stringLiteral
  atEnd (name, source) (← mark ";" rest)

/-- The names in the union of all parameter types. -/
def unionOf? (line : Text) : Option (List Text) := do
  let rest ← (keyword "type" line).bind (keyword "TranslationProps")
  let (names, rest) ← (mark "=" rest).bind (separated '|' identifier)
  atEnd names (← mark ";" rest)

/-- The label of a case. -/
def caseOf? (line : Text) : Option Text := do
  let (label, rest) ← (keyword "case" line).bind stringLiteral
  atEnd label (← mark ":" rest)

/-- What is done with a module when it is loaded. -/
def useModule : Text :=
  (".then((module) => dispatch(\x7b type: ACTIONTYPE.CHANGE_LANG, payload: " : Text) ++
    ("\x7b lang, translation: module.translate \x7d \x7d));" : Text)

/-- The module that a line loads to use it. -/
def loadOf? (line : Text) : Option Text := do
  let (source, rest) ← ((keyword "import" line).bind (mark "(")).bind plainTemplate
  let rest ← (mark ")" rest).bind (mark useModule)
  atEnd source rest

/-- The cases that load a module, each with its label and the module. -/
def casesOf : List Text → List (Text × Text)
  | [] => []
  | [_] => []
  | line :: next :: rest =>
    match caseOf? line, loadOf? next with
    | some label, some source => (label, source) :: casesOf rest
    | _, _ => casesOf (next :: rest)

/-! ### Lines that are read -/

section Reading

variable {name text rest : Text}

theorem keyword_append (hname : Template.isIdentifier name = true) (hend : endsName rest = true)
    (htext : skipSpace text = name ++ rest) : keyword name text = some rest := by
  rw [keyword, word_skipSpace hname hend htext, Option.bind_some]
  exact if_pos rfl

theorem keyword_eq_none {other : Text} (hname : Template.isIdentifier name = true)
    (hend : endsName rest = true) (htext : skipSpace text = name ++ rest) (hne : name ≠ other) :
    keyword other text = none := by
  rw [keyword, word_skipSpace hname hend htext, Option.bind_some]
  exact if_neg hne

/-- Between quotes and between backticks, a text stands for itself. -/
structure Spellable (text : Text) : Prop where
  plain : ∀ c ∈ text, c ∉ ['"', '\\', '`', '\n', '\r']
  holeFree : Template.HoleFree text

theorem Spellable.lineFeed_not_mem (h : Spellable text) : '\n' ∉ text := by
  intro hmem
  have hplain := h.plain _ hmem
  simp at hplain

theorem Spellable.quoted_append (h : Spellable text) (rest : Text) :
    quoted '"' (text ++ '"' :: rest) = some (text, rest) := by
  obtain ⟨hplain, -⟩ := h
  induction text with
  | nil =>
    rw [List.nil_append, quoted]
    exact if_pos rfl
  | cons c text ih =>
    obtain ⟨hc, htext⟩ := List.forall_mem_cons.mp hplain
    simp only [List.mem_cons, List.not_mem_nil, or_false, not_or] at hc
    rw [List.cons_append, quoted, if_neg hc.1, if_neg hc.2.1, if_neg (by simp [hc]), ih htext]
    rfl

theorem stringLiteral_append (h : Spellable name)
    (htext : skipSpace text = '"' :: (name ++ '"' :: rest)) :
    stringLiteral text = some (name, rest) := by
  have hmark : mark "\"" text = some (name ++ '"' :: rest) := mark_append htext
  rw [stringLiteral, hmark, Option.bind_some, h.quoted_append]

theorem plainTemplate_append (h : Spellable name)
    (htext : skipSpace text = '`' :: (name ++ '`' :: rest)) :
    plainTemplate text = some (name, rest) := by
  have hmark : mark "`" text = some (name ++ '`' :: rest) := mark_append htext
  have hplain : Template.Plain name := by
    intro c hc
    have hmarks := h.plain c hc
    simp_all
  rw [plainTemplate, hmark, Option.bind_some, Template.parts_label hplain h.holeFree,
    Option.bind_some]

end Reading

/-! ### Lines of languages -/

/-- The module of a language, below a root without slashes at its end. -/
def source (importRoot language : Text) : Text := importRoot ++ '/' :: fileStem language

section Languages

variable {importRoot language : Text}

theorem importLine_eq (importRoot language : Text) :
    importLine importRoot language = "import \x7b Props as " ++ (propsName language ++
      (" \x7d from " ++ ('"' :: (source importRoot language ++ '"' :: [';'])))) := by
  unfold importLine source
  have hslash : ("/" : Text) = ['/'] := rfl
  have hquote : (" \x7d from \"" : Text) = " \x7d from " ++ ['"'] := rfl
  have hend : ("\";" : Text) = '"' :: [';'] := rfl
  simp only [hslash, hquote, hend, List.append_assoc, List.cons_append, List.nil_append]

theorem importOf?_importLine (h : Spellable (source importRoot language)) :
    importOf? (importLine importRoot language) =
      some (propsName language, source importRoot language) := by
  have himport (rest : Text) :
      keyword "import" ("import \x7b Props as " ++ rest) = some (" \x7b Props as " ++ rest) :=
    keyword_append rfl rfl rfl
  have hmark (rest : Text) :
      mark "\x7b" (" \x7b Props as " ++ rest) = some (" Props as " ++ rest) :=
    mark_append rfl
  have hprops (rest : Text) : keyword "Props" (" Props as " ++ rest) = some (" as " ++ rest) :=
    keyword_append rfl rfl rfl
  have has (rest : Text) : keyword "as" (" as " ++ rest) = some (' ' :: rest) :=
    keyword_append rfl rfl rfl
  have hidentifier (rest : Text) :
      identifier (' ' :: (propsName language ++ (" \x7d from " ++ rest))) =
        some (propsName language, " \x7d from " ++ rest) :=
    identifier_append (isIdentifier_propsName language) rfl rfl
      (propsName_not_mem_reserved language)
  have hbrace (rest : Text) : mark "\x7d" (" \x7d from " ++ rest) = some (" from " ++ rest) :=
    mark_append rfl
  have hfrom (rest : Text) : keyword "from" (" from " ++ rest) = some (' ' :: rest) :=
    keyword_append rfl rfl rfl
  have hliteral : stringLiteral (' ' :: '"' :: (source importRoot language ++ '"' :: [';'])) =
      some (source importRoot language, [';']) :=
    stringLiteral_append h rfl
  have hend : mark ";" [';'] = some [] := rfl
  simp only [importOf?, importLine_eq, himport, hmark, hprops, has, hidentifier, hbrace, hfrom,
    hliteral, hend, Option.bind_some, Option.bind_eq_bind]
  rfl

theorem skipSpace_indentation (level : Nat) (text : Text) :
    skipSpace (indentation level ++ text) = skipSpace text := by
  rw [indentation]
  induction 4 * level with
  | zero => rfl
  | succ n ih => exact ih

/-- The line that starts the case of a language. -/
def caseText (language : Text) : Text := "case " ++ '"' :: (fileStem language ++ '"' :: [':'])

theorem caseOf?_caseText (h : Spellable (fileStem language)) (level : Nat) :
    caseOf? (indentation level ++ caseText language) = some (fileStem language) := by
  have hcase (rest : Text) :
      keyword "case" (indentation level ++ ("case " ++ rest)) = some (' ' :: rest) :=
    keyword_append rfl rfl (skipSpace_indentation level _)
  have hliteral : stringLiteral (' ' :: '"' :: (fileStem language ++ '"' :: [':'])) =
      some (fileStem language, [':']) :=
    stringLiteral_append h rfl
  have hend : mark ":" [':'] = some [] := rfl
  unfold caseText
  simp only [caseOf?, hcase, hliteral, hend, Option.bind_some, Option.bind_eq_bind]
  rfl

/-- The line that loads the module of a language. -/
def loadText (importRoot language : Text) : Text :=
  "import(" ++ '`' :: ((source importRoot language ++ ".ts") ++ '`' :: ')' :: useModule)

theorem loadOf?_loadText (h : Spellable (source importRoot language ++ ".ts")) (level : Nat) :
    loadOf? (indentation level ++ loadText importRoot language) =
      some (source importRoot language ++ ".ts") := by
  have himport (rest : Text) :
      keyword "import" (indentation level ++ ("import(" ++ rest)) = some ('(' :: rest) :=
    keyword_append rfl rfl (skipSpace_indentation level _)
  have hopen (rest : Text) : mark "(" ('(' :: rest) = some rest := mark_append rfl
  have hliteral (rest : Text) :
      plainTemplate ('`' :: ((source importRoot language ++ ".ts") ++ '`' :: rest)) =
        some (source importRoot language ++ ".ts", rest) :=
    plainTemplate_append h rfl
  have hclose (rest : Text) : mark ")" (')' :: rest) = some rest := mark_append rfl
  have huse : mark useModule useModule = some [] := by
    refine mark_append ?_
    rw [List.append_nil]
    rfl
  unfold loadText
  simp only [loadOf?, himport, hopen, hliteral, hclose, huse, Option.bind_some,
    Option.bind_eq_bind]
  rfl

/-- The names in the union of the parameter types. -/
def unionNames (languages : List Text) : List Text :=
  if languages.isEmpty then ["never"] else languages.map propsName

/-- The line that declares the union of the parameter types. -/
def unionLine (languages : List Text) : Text := "type TranslationProps = " ++ union languages ++ ";"

theorem separated_joinWith {first : Text} {names : List Text}
    (hnames : ∀ name ∈ first :: names,
      Template.isIdentifier name = true ∧ String.ofList name ∉ reserved)
    {text : Text} (htext : skipSpace text = Text.joinWith " | " (first :: names) ++ [';']) :
    separated '|' identifier text = some (first :: names, [';']) := by
  induction names generalizing first text with
  | nil =>
    obtain ⟨hname, hfree⟩ := hnames first (by simp)
    have hlast : Text.joinWith " | " [first] ++ [';'] = first ++ [';'] := by
      simp [Text.joinWith, List.intercalate]
    rw [hlast] at htext
    exact separated_last (identifier_append hname rfl htext hfree) rfl
  | cons second names ih =>
    obtain ⟨⟨hname, hfree⟩, hmore⟩ := List.forall_mem_cons.mp hnames
    obtain ⟨after, hafter⟩ :
        ∃ after, after = Text.joinWith " | " (second :: names) ++ [';'] := ⟨_, rfl⟩
    have hspace : skipSpace after = after := by
      obtain ⟨more, hjoin⟩ := Text.exists_joinWith_cons " | " second names
      rw [hafter, hjoin, List.append_assoc]
      exact skipSpace_of_isIdentifier (hmore second (by simp)).1 _
    have hstart : skipSpace text = first ++ ' ' :: '|' :: ' ' :: after := by
      rw [htext, hafter, Text.joinWith, List.intercalate_cons_cons]
      simp [Text.joinWith]
    have hidentifier : identifier text = some (first, ' ' :: '|' :: ' ' :: after) :=
      identifier_append hname rfl hstart hfree
    have hmark : mark ['|'] (' ' :: '|' :: ' ' :: after) = some (' ' :: after) := mark_append rfl
    have hshort : after.length < text.length := by
      have hlength := length_skipSpace_le text
      rw [hstart] at hlength
      simp only [List.length_append, List.length_cons] at hlength
      omega
    rw [separated_cons hidentifier hmark hspace hshort, ih hmore (hspace.trans hafter)]
    rfl

theorem unionNames_mem (languages : List Text) : ∀ name ∈ unionNames languages,
    Template.isIdentifier name = true ∧ String.ofList name ∉ reserved := by
  intro name hname
  rw [unionNames] at hname
  split_ifs at hname
  · rw [List.mem_singleton.mp hname]
    decide
  · obtain ⟨language, -, rfl⟩ := List.mem_map.mp hname
    exact ⟨isIdentifier_propsName language, propsName_not_mem_reserved language⟩

theorem union_eq_joinWith (languages : List Text) :
    union languages = Text.joinWith " | " (unionNames languages) := by
  cases languages with
  | nil => rfl
  | cons language languages => rfl

theorem unionOf?_unionLine (languages : List Text) :
    unionOf? (unionLine languages) = some (unionNames languages) := by
  obtain ⟨first, names, hnames⟩ : ∃ first names, unionNames languages = first :: names := by
    cases languages with
    | nil => exact ⟨_, _, rfl⟩
    | cons language languages => exact ⟨_, _, rfl⟩
  have htype (rest : Text) : keyword "type" ("type TranslationProps = " ++ rest) =
      some (" TranslationProps = " ++ rest) :=
    keyword_append rfl rfl rfl
  have hprops (rest : Text) : keyword "TranslationProps" (" TranslationProps = " ++ rest) =
      some (" = " ++ rest) :=
    keyword_append rfl rfl rfl
  have hequal (rest : Text) : mark "=" (" = " ++ rest) = some (' ' :: rest) := mark_append rfl
  have hseparated :
      separated '|' identifier (' ' :: (Text.joinWith " | " (first :: names) ++ [';'])) =
        some (first :: names, [';']) := by
    have hall := hnames ▸ unionNames_mem languages
    refine separated_joinWith hall ?_
    obtain ⟨more, hjoin⟩ := Text.exists_joinWith_cons " | " first names
    rw [hjoin, List.append_assoc, skipSpace_of_isSpace rfl]
    exact skipSpace_of_isIdentifier (hall first (by simp)).1 _
  have hend : mark ";" [';'] = some [] := rfl
  have hline : unionLine languages =
      "type TranslationProps = " ++ (Text.joinWith " | " (first :: names) ++ [';']) := by
    have hsemicolon : (";" : Text) = [';'] := rfl
    unfold unionLine
    rw [union_eq_joinWith, hnames, hsemicolon, List.append_assoc]
  simp only [hline, unionOf?, htype, hprops, hequal, hseparated, hend, Option.bind_some,
    Option.bind_eq_bind, hnames]
  rfl

end Languages

/-! ### Lines of a provider -/

/-- A line is one line that imports no parameter type, is not their union, and starts no case of a
language. -/
def Silent (line : Text) : Prop :=
  '\n' ∉ line ∧ importOf? line = none ∧ unionOf? line = none ∧ caseOf? line = none

instance : DecidablePred Silent := fun _ => inferInstanceAs (Decidable (_ ∧ _ ∧ _ ∧ _))

section FirstWord

variable {first line rest : Text} (hname : Template.isIdentifier first = true)
  (hend : endsName rest = true) (htext : skipSpace line = first ++ rest)

include hname hend htext

theorem importOf?_eq_none (hne : first ≠ "import") : importOf? line = none := by
  rw [importOf?, keyword_eq_none hname hend htext hne]
  rfl

theorem unionOf?_eq_none (hne : first ≠ "type") : unionOf? line = none := by
  rw [unionOf?, keyword_eq_none hname hend htext hne]
  rfl

theorem caseOf?_eq_none (hne : first ≠ "case") : caseOf? line = none := by
  rw [caseOf?, keyword_eq_none hname hend htext hne]
  rfl

end FirstWord

theorem casesOf_cons {line : Text} (h : caseOf? line = none) (rest : List Text) :
    casesOf (line :: rest) = casesOf rest := by
  cases rest with
  | nil => rfl
  | cons next rest => simp [casesOf, h]

theorem casesOf_append {front : List Text} (h : ∀ line ∈ front, caseOf? line = none)
    (rest : List Text) : casesOf (front ++ rest) = casesOf rest := by
  induction front with
  | nil => rfl
  | cons line front ih =>
    obtain ⟨hline, hfront⟩ := List.forall_mem_cons.mp h
    rw [List.cons_append, casesOf_cons hline, ih hfront]

/-- The lines of the case of a language. -/
def caseLines (importRoot language : Text) : List Text :=
  linesAt 3 (languageCase importRoot language)

theorem caseLines_eq (importRoot language : Text) :
    caseLines importRoot language =
      [indentation 3 ++ caseText language, indentation 4 ++ loadText importRoot language,
        indentation 4 ++ "break;"] := by
  have hcase : ("case \"" ++ fileStem language ++ "\":" : Text) = caseText language := by
    have hquote : ("case \"" : Text) = "case " ++ ['"'] := rfl
    have hend : ("\":" : Text) = '"' :: [':'] := rfl
    unfold caseText
    simp only [hquote, hend, List.append_assoc, List.cons_append, List.nil_append]
  have hload : ("import(`" ++ importRoot ++ "/" ++ fileStem language ++
        ".ts`).then((module) => dispatch(\x7b type: ACTIONTYPE.CHANGE_LANG, payload: " ++
        "\x7b lang, translation: module.translate \x7d \x7d));" : Text) =
      loadText importRoot language := by
    have hslash : ("/" : Text) = ['/'] := rfl
    have htick : ("import(`" : Text) = "import(" ++ ['`'] := rfl
    have hthen :
        (".ts`).then((module) => dispatch(\x7b type: ACTIONTYPE.CHANGE_LANG, payload: " : Text) =
          ".ts" ++ '`' :: ')' ::
            ".then((module) => dispatch(\x7b type: ACTIONTYPE.CHANGE_LANG, payload: " := by
      rw [String.toList_ofList, String.toList_ofList, String.toList_ofList]
      rfl
    unfold loadText source useModule
    simp only [hslash, htick, hthen, List.append_assoc, List.cons_append, List.nil_append]
  unfold caseLines languageCase
  rw [hcase, hload]
  rfl

theorem linesAt_flatMap_languageCase (importRoot : Text) (languages : List Text) (rest : Layout) :
    linesAt 3 (languages.flatMap (languageCase importRoot) ++ rest) =
      languages.flatMap (caseLines importRoot) ++ linesAt 3 rest := by
  induction languages with
  | nil => rfl
  | cons language languages ih =>
    rw [List.flatMap_cons, List.append_assoc, List.flatMap_cons, List.append_assoc, ← ih]
    rfl

/-- The lines between the imported parameter types and their union. -/
def importedLines : List Text :=
  ["import \x7b useReducer, createContext, ReactNode, useContext \x7d from \"react\";", []]

/-- The lines between the union of the parameter types and the cases of the languages. -/
def stateLines : List Text :=
  [] :: linesAt 0 stateAndReducer ++ [] :: (linesAt 0 (useSet [] [])).take 5

/-- The lines behind the cases of the languages. -/
def closingLines : List Text := (linesAt 0 (useSet [] [])).drop 5 ++ [] :: linesAt 0 getLanguage

theorem silent_fixedLines :
    ∀ line ∈ Catalog.generatedNotice :: importedLines ++ stateLines ++ closingLines,
      Silent line := by
  unfold Catalog.generatedNotice importedLines stateLines closingLines stateAndReducer useSet
    getLanguage
  -- A literal is encoded as bytes; as a list of characters it need not be decoded.
  repeat rw [String.toList_ofList]
  decide +kernel

theorem linesAt_map_importLine (importRoot : Text) (languages : List Text) (rest : Layout) :
    linesAt 0 (languages.map (fun language => .line (importLine importRoot language)) ++ rest) =
      languages.map (importLine importRoot) ++ linesAt 0 rest := by
  induction languages with
  | nil => rfl
  | cons language languages ih =>
    rw [List.map_cons, List.cons_append, linesAt, ih]
    rfl

theorem linesAt_useSet (importRoot : Text) (languages : List Text) (rest : Layout) :
    linesAt 0 (useSet importRoot languages ++ rest) =
      (linesAt 0 (useSet [] [])).take 5 ++ languages.flatMap (caseLines importRoot) ++
        (linesAt 0 (useSet [] [])).drop 5 ++ linesAt 0 rest := by
  have hswitch : linesAt 0 (useSet importRoot languages ++ rest) =
      (linesAt 0 (useSet [] [])).take 5 ++ linesAt 3 (languages.flatMap (languageCase importRoot) ++
        .dedent :: .line "\x7d" :: .dedent :: .line "\x7d;" :: .dedent :: .line "\x7d;" ::
          rest) := by
    unfold useSet
    simp only [nested, List.append_assoc, List.cons_append, List.nil_append]
    rfl
  rw [hswitch, linesAt_flatMap_languageCase, List.append_assoc, List.append_assoc]
  rfl

theorem linesAt_layout (importRoot : Text) (languages : List Text) :
    linesAt 0 (layout importRoot languages) =
      Catalog.generatedNotice :: languages.map (importLine (trimSlashes importRoot)) ++
        importedLines ++ unionLine languages :: stateLines ++
        languages.flatMap (caseLines (trimSlashes importRoot)) ++ closingLines := by
  have hstate (rest : Layout) : linesAt 0 (stateAndReducer ++ rest) =
      linesAt 0 stateAndReducer ++ linesAt 0 rest := rfl
  have hline (text : Text) (rest : Layout) (h : text ≠ []) :
      linesAt 0 (.line text :: rest) = text :: linesAt 0 rest := by
    simp [linesAt, indentation, h]
  have hblank (rest : Layout) : linesAt 0 (.newline :: rest) = [] :: linesAt 0 rest := rfl
  unfold layout stateLines closingLines importedLines unionLine
  rw [List.append_assoc, List.append_assoc, List.append_assoc, List.append_assoc, List.append_assoc,
    List.cons_append, hline _ _ (by decide), linesAt_map_importLine]
  simp only [List.cons_append, List.nil_append]
  rw [hline _ _ (by decide), hblank, hline _ _ (by simp), hblank, hstate, hblank, linesAt_useSet,
    hblank]
  simp only [List.append_assoc, List.cons_append, List.nil_append]

/-! ### No line is broken -/

theorem lineFeed_not_mem_of_isIdentifier {name : Text} (h : Template.isIdentifier name = true) :
    '\n' ∉ name := by
  cases name with
  | nil => exact List.not_mem_nil
  | cons c rest =>
    rw [Template.isIdentifier, Bool.and_eq_true, List.all_eq_true] at h
    obtain ⟨hc, hrest⟩ := h
    rintro (_ | ⟨_, hmem⟩)
    · exact absurd hc (by decide)
    · exact absurd (hrest _ hmem) (by decide)

theorem lineFeed_not_mem_unionLine (languages : List Text) : '\n' ∉ unionLine languages := by
  have hjoin : '\n' ∉ Text.joinWith " | " (unionNames languages) :=
    Text.not_mem_joinWith (by decide) fun name hname =>
      lineFeed_not_mem_of_isIdentifier (unionNames_mem languages name hname).1
  unfold unionLine
  rw [union_eq_joinWith]
  simp only [List.mem_append, not_or]
  exact ⟨⟨by decide, hjoin⟩, by decide⟩

theorem lineFeed_not_mem_importLine {importRoot language : Text}
    (h : '\n' ∉ source importRoot language) : '\n' ∉ importLine importRoot language := by
  have hname := lineFeed_not_mem_of_isIdentifier (isIdentifier_propsName language)
  rw [importLine_eq]
  simp only [List.mem_append, List.mem_cons, List.not_mem_nil, or_false, not_or]
  exact ⟨by decide, hname, by decide, by decide, h, by decide, by decide⟩

theorem lineFeed_not_mem_caseLines {importRoot language : Text}
    (h : '\n' ∉ source importRoot language) :
    ∀ line ∈ caseLines importRoot language, '\n' ∉ line := by
  have hindent (level : Nat) : '\n' ∉ indentation level := by simp [indentation]
  have hstem : '\n' ∉ fileStem language := by
    intro hmem
    exact h (List.mem_append_right _ (List.mem_cons_of_mem _ hmem))
  have hcase : '\n' ∉ caseText language := by
    unfold caseText
    simp only [List.mem_append, List.mem_cons, List.not_mem_nil, or_false, not_or]
    exact ⟨by decide, by decide, hstem, by decide, by decide⟩
  have hload : '\n' ∉ loadText importRoot language := by
    unfold loadText
    simp only [List.mem_append, List.mem_cons, not_or]
    exact ⟨by decide, by decide, ⟨h, by decide⟩, by decide, by decide, by decide⟩
  rw [caseLines_eq]
  simp only [List.forall_mem_cons, List.mem_append, not_or]
  exact ⟨⟨hindent 3, hcase⟩, ⟨hindent 4, hload⟩, ⟨hindent 4, by decide⟩, by simp⟩

theorem endsLine_layout (importRoot : Text) (languages : List Text) :
    (layout importRoot languages).all Item.endsLine = true := by
  have hstate : stateAndReducer.all Item.endsLine = true := rfl
  have hlanguage : getLanguage.all Item.endsLine = true := rfl
  have hcase (importRoot language : Text) :
      (languageCase importRoot language).all Item.endsLine = true := rfl
  unfold layout useSet nested
  simp [List.all_flatMap, hstate, hlanguage, hcase, Item.endsLine]

/-! ### What the lines say -/

theorem Spellable.of_infix {text more : Text} (h : Spellable more) (htext : text <:+: more) :
    Spellable text where
  plain c hc := h.plain c (htext.subset hc)
  holeFree hhole := h.holeFree (hhole.trans htext)

theorem Spellable.fileStem {importRoot language : Text}
    (h : Spellable (source importRoot language)) : Spellable (fileStem language) :=
  h.of_infix ⟨importRoot ++ ['/'], [], by simp [source]⟩

theorem Spellable.append_extension {text : Text} (h : Spellable text) :
    Spellable (text ++ ".ts") where
  plain := by
    intro c hc
    rcases List.mem_append.mp hc with hc | hc
    · exact h.plain c hc
    · have hextension : ∀ d ∈ ['.', 't', 's'], d ∉ ['"', '\\', '`', '\n', '\r'] := by simp
      exact hextension c hc
  holeFree := by
    have hdot : Template.HoleFree (text ++ ['.']) := h.holeFree.append_stop (by decide)
    have ht : Template.HoleFree (text ++ ['.'] ++ ['t']) := hdot.append_stop (by decide)
    have hs : Template.HoleFree (text ++ ['.'] ++ ['t'] ++ ['s']) := ht.append_stop (by decide)
    rwa [List.append_assoc, List.append_assoc] at hs

section Saying

variable {importRoot : Text} {languages : List Text}

theorem silent_importLine (importRoot language : Text) :
    unionOf? (importLine importRoot language) = none ∧
      caseOf? (importLine importRoot language) = none := by
  have hend (rest : Text) : endsName (" \x7b Props as " ++ rest) = true := rfl
  have hfirst (rest : Text) :
      skipSpace ("import \x7b Props as " ++ rest) = "import" ++ (" \x7b Props as " ++ rest) := rfl
  rw [importLine_eq]
  exact ⟨unionOf?_eq_none rfl (hend _) (hfirst _) (by decide),
    caseOf?_eq_none rfl (hend _) (hfirst _) (by decide)⟩

theorem silent_unionLine (languages : List Text) :
    importOf? (unionLine languages) = none ∧ caseOf? (unionLine languages) = none := by
  have hend (rest : Text) : endsName (" TranslationProps = " ++ rest) = true := rfl
  have hfirst (rest : Text) :
      skipSpace ("type TranslationProps = " ++ rest) = "type" ++ (" TranslationProps = " ++ rest) :=
    rfl
  unfold unionLine
  rw [List.append_assoc]
  exact ⟨importOf?_eq_none rfl (hend _) (hfirst _) (by decide),
    caseOf?_eq_none rfl (hend _) (hfirst _) (by decide)⟩

theorem silent_caseLines {language line : Text} (h : line ∈ caseLines importRoot language) :
    importOf? line = none ∧ unionOf? line = none := by
  rw [caseLines_eq] at h
  simp only [List.mem_cons, List.not_mem_nil, or_false] at h
  rcases h with rfl | rfl | rfl
  · have hfirst : skipSpace (indentation 3 ++ caseText language) =
        "case" ++ ' ' :: '"' :: (fileStem language ++ '"' :: [':']) := skipSpace_indentation 3 _
    exact ⟨importOf?_eq_none rfl rfl hfirst (by decide),
      unionOf?_eq_none rfl rfl hfirst (by decide)⟩
  · have hfirst (rest : Text) :
        skipSpace (indentation 4 ++ ("import(" ++ rest)) = "import" ++ '(' :: rest :=
      skipSpace_indentation 4 _
    have hbrace (rest : Text) : mark "\x7b" ('(' :: rest) = none := rfl
    unfold loadText
    refine ⟨?_, unionOf?_eq_none rfl rfl (hfirst _) (by decide)⟩
    rw [importOf?, keyword_append rfl rfl (hfirst _), Option.bind_some, hbrace]
    rfl
  · decide

/-- A provider is written line by line if the modules of its languages have no line feeds in their
names. -/
theorem lines?_moduleText
    (h : ∀ language ∈ languages, '\n' ∉ source (trimSlashes importRoot) language) :
    Text.lines? (moduleText importRoot languages) =
      some (linesAt 0 (layout importRoot languages)) := by
  have hfixed (line : Text)
      (hline : line ∈ Catalog.generatedNotice :: importedLines ++ stateLines ++ closingLines) :
      '\n' ∉ line := (silent_fixedLines line hline).1
  simp only [List.forall_mem_append, List.forall_mem_cons] at hfixed
  obtain ⟨⟨⟨hnotice, himported⟩, hstate⟩, hclosing⟩ := hfixed
  rw [moduleText, render, renderAt_eq_flatMap (endsLine_layout importRoot languages),
    Text.lines?_flatMap_of_forall]
  rw [linesAt_layout]
  simp only [List.forall_mem_append, List.forall_mem_cons, List.forall_mem_map,
    List.forall_mem_flatMap]
  have hunion := lineFeed_not_mem_unionLine languages
  refine ⟨⟨⟨⟨⟨hnotice, ?_⟩, himported⟩, hunion, hstate⟩, ?_⟩, hclosing⟩
  · intro language hmem
    exact lineFeed_not_mem_importLine (h language hmem)
  · intro language hmem
    exact lineFeed_not_mem_caseLines (h language hmem)

/-- What a reader finds in the lines of a provider, if it finds nothing in the lines that are the
same in every provider. -/
theorem filterMap_linesAt_layout {α : Type} {reader : Text → Option α}
    (hsilent : ∀ line, Silent line → reader line = none)
    (hcases : ∀ language, ∀ line ∈ caseLines (trimSlashes importRoot) language,
      reader line = none) :
    (linesAt 0 (layout importRoot languages)).filterMap reader =
      languages.filterMap (fun language => reader (importLine (trimSlashes importRoot) language)) ++
        (reader (unionLine languages)).toList := by
  have hfixed (line : Text)
      (hline : line ∈ Catalog.generatedNotice :: importedLines ++ stateLines ++ closingLines) :
      reader line = none := hsilent line (silent_fixedLines line hline)
  simp only [List.forall_mem_append, List.forall_mem_cons] at hfixed
  obtain ⟨⟨⟨hnotice, himported⟩, hstate⟩, hclosing⟩ := hfixed
  have hflat : (languages.flatMap (caseLines (trimSlashes importRoot))).filterMap reader = [] := by
    rw [List.filterMap_eq_nil_iff]
    intro line hline
    obtain ⟨language, -, hmem⟩ := List.mem_flatMap.mp hline
    exact hcases language line hmem
  have hunion : (unionLine languages :: stateLines).filterMap reader =
      (reader (unionLine languages)).toList := by
    rw [List.filterMap_cons, List.filterMap_eq_nil_iff.mpr hstate]
    cases reader (unionLine languages) <;> rfl
  rw [linesAt_layout]
  simp only [List.filterMap_append, List.cons_append, List.filterMap_cons_none hnotice,
    List.filterMap_map, List.filterMap_eq_nil_iff.mpr himported,
    List.filterMap_eq_nil_iff.mpr hclosing, hflat, hunion, List.append_nil]
  rfl

theorem filterMap_importOf?
    (h : ∀ language ∈ languages, Spellable (source (trimSlashes importRoot) language)) :
    (linesAt 0 (layout importRoot languages)).filterMap importOf? =
      languages.map fun language =>
        (propsName language, source (trimSlashes importRoot) language) := by
  rw [filterMap_linesAt_layout (fun line hline => hline.2.1) fun language line hline =>
    (silent_caseLines hline).1, (silent_unionLine languages).1, Option.toList_none, List.append_nil,
    ← List.filterMap_eq_map']
  exact List.filterMap_congr fun language hmem => importOf?_importLine (h language hmem)

theorem filterMap_unionOf? :
    (linesAt 0 (layout importRoot languages)).filterMap unionOf? = [unionNames languages] := by
  rw [filterMap_linesAt_layout (fun line hline => hline.2.2.1) fun language line hline =>
    (silent_caseLines hline).2, unionOf?_unionLine, Option.toList_some]
  have himport : languages.filterMap
      (fun language => unionOf? (importLine (trimSlashes importRoot) language)) = [] := by
    rw [List.filterMap_eq_nil_iff]
    exact fun language _ => (silent_importLine _ language).1
  rw [himport, List.nil_append]

theorem casesOf_flatMap_caseLines {importRoot : Text}
    (h : ∀ language ∈ languages, Spellable (source importRoot language)) (rest : List Text) :
    casesOf (languages.flatMap (caseLines importRoot) ++ rest) =
      languages.map (fun language => (fileStem language, source importRoot language ++ ".ts")) ++
        casesOf rest := by
  induction languages with
  | nil => rfl
  | cons language languages ih =>
    obtain ⟨hlanguage, hmore⟩ := List.forall_mem_cons.mp h
    have hcase := caseOf?_caseText hlanguage.fileStem 3
    have hload := loadOf?_loadText hlanguage.append_extension 4
    have hbreak : caseOf? (indentation 4 ++ "break;") = none := by decide
    rw [List.flatMap_cons, List.append_assoc, caseLines_eq, List.map_cons, List.cons_append]
    simp only [List.cons_append, List.nil_append, casesOf, hcase, hload]
    rw [casesOf_cons hbreak, ih hmore]

theorem casesOf_linesAt_layout
    (h : ∀ language ∈ languages, Spellable (source (trimSlashes importRoot) language)) :
    casesOf (linesAt 0 (layout importRoot languages)) = languages.map fun language =>
      (fileStem language, source (trimSlashes importRoot) language ++ ".ts") := by
  have hfixed (line : Text)
      (hline : line ∈ Catalog.generatedNotice :: importedLines ++ stateLines ++ closingLines) :
      caseOf? line = none := (silent_fixedLines line hline).2.2.2
  simp only [List.forall_mem_append, List.forall_mem_cons] at hfixed
  obtain ⟨⟨⟨hnotice, himported⟩, hstate⟩, hclosing⟩ := hfixed
  have hopening : ∀ line ∈ Catalog.generatedNotice ::
      languages.map (importLine (trimSlashes importRoot)) ++ importedLines ++
        unionLine languages :: stateLines, caseOf? line = none := by
    simp only [List.forall_mem_append, List.forall_mem_cons, List.forall_mem_map]
    exact ⟨⟨⟨hnotice, fun language _ => (silent_importLine _ language).2⟩, himported⟩,
      (silent_unionLine languages).2, hstate⟩
  have hend := casesOf_append hclosing []
  rw [List.append_nil] at hend
  rw [linesAt_layout, List.append_assoc, casesOf_append hopening, casesOf_flatMap_caseLines h, hend]
  exact List.append_nil _

end Saying

/-- What the provider of a configuration imports, if its languages have files of their own: each
parameter type under an identifier, all of them in the union once, and one case for each language,
which loads the file that is written for it. No name is imported twice if and only if no two
languages are alike. The imports and cases are those that are read back from the module, and this is
possible only where the import root and the languages can be spelled out in literals: they go into
the module as they are, and a quote, a backslash, a backtick, a line break or `${` in one of them
ends a literal early or means something else there. -/
theorem imports_nodup_iff {config : Command.Config}
    (hfiles : (config.languages.map fileStem).Nodup) :
    (∀ language, Template.isIdentifier (propsName language) = true ∧
      String.ofList (propsName language) ∉ reserved) ∧
    ((config.languages.map propsName).Nodup ↔
      config.languages.Pairwise fun a b => ¬ Alike a b) ∧
    (∀ language,
      config.outputPath language = Files.Path.join config.outDir (fileStem language ++ ".ts")) ∧
    ((∀ language ∈ config.languages, Spellable (source (trimSlashes config.importRoot) language)) →
      ∃ lines, Text.lines? (moduleText config.importRoot config.languages) = some lines ∧
        lines.filterMap importOf? = config.languages.map (fun language =>
          (propsName language, trimSlashes config.importRoot ++ '/' :: fileStem language)) ∧
        lines.filterMap unionOf? = [unionNames config.languages] ∧
        casesOf lines = config.languages.map (fun language => (fileStem language,
          trimSlashes config.importRoot ++ '/' :: (fileStem language ++ ".ts"))) ∧
        ((casesOf lines).map Prod.fst).Nodup ∧
        (((lines.filterMap importOf?).map Prod.fst).Nodup ↔
          config.languages.Pairwise fun a b => ¬ Alike a b)) := by
  have hnames : (config.languages.map propsName).Nodup ↔
      config.languages.Pairwise fun a b => ¬ Alike a b := by
    rw [List.Nodup, List.pairwise_map]
    simp only [ne_eq, propsName_eq_iff]
  refine ⟨fun language => ⟨isIdentifier_propsName language, propsName_not_mem_reserved language⟩,
    hnames, fun language => rfl, ?_⟩
  intro hspell
  have himports := filterMap_importOf? hspell
  have hcases := casesOf_linesAt_layout hspell
  refine ⟨_, lines?_moduleText fun language hmem => (hspell language hmem).lineFeed_not_mem,
    himports, filterMap_unionOf?, ?_, ?_, ?_⟩
  · simp only [hcases, source, List.append_assoc, List.cons_append]
  · rw [hcases, List.map_map]
    exact hfiles
  · rw [himports, List.map_map]
    exact hnames

/-- A configuration with two languages that have files of their own and share a name. -/
def dashed : Command.Config where
  dir := "."
  outDir := "i18n"
  languages := ["a-b", "a_b"]
  importRoot := "@i18n"
  providerFile := some defaultFile
  settingsPath := none

/-- The languages `a-b` and `a_b` have files of their own, but both are imported as `PropsA_B`. -/
theorem imports_nodup_iff_dashed :
    (dashed.languages.map fileStem).Nodup ∧
      ∃ lines, Text.lines? (moduleText dashed.importRoot dashed.languages) = some lines ∧
        ((casesOf lines).map Prod.fst).Nodup ∧
        ¬ ((lines.filterMap importOf?).map Prod.fst).Nodup := by
  have hfiles : (dashed.languages.map fileStem).Nodup := by decide +kernel
  have hspell : ∀ language ∈ dashed.languages,
      Spellable (source (trimSlashes dashed.importRoot) language) := by
    have hspelled : dashed.languages.map (source (trimSlashes dashed.importRoot)) =
        [['@', 'i', '1', '8', 'n', '/', 'a', '-', 'b'],
          ['@', 'i', '1', '8', 'n', '/', 'a', '_', 'b']] := by
      decide +kernel
    intro language hmem
    have hsource := List.mem_map_of_mem (f := source (trimSlashes dashed.importRoot)) hmem
    rw [hspelled] at hsource
    rcases List.mem_pair.mp hsource with hsource | hsource
    · rw [hsource]
      exact ⟨by simp, by unfold Template.HoleFree; decide⟩
    · rw [hsource]
      exact ⟨by simp, by unfold Template.HoleFree; decide⟩
  obtain ⟨-, -, -, hmodule⟩ := imports_nodup_iff hfiles
  obtain ⟨lines, hlines, -, -, -, hlabels, hnodup⟩ := hmodule hspell
  refine ⟨hfiles, lines, hlines, hlabels, ?_⟩
  rw [hnodup]
  decide +kernel

end Provider

end Phrasebook
