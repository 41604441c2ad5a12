import Phrasebook.Proofs.Script.Expression

/-!
# Reading expressions of scripts

A reader for the expressions of `Phrasebook.Proofs.Script.Expression`, character by character. It
takes the longest token at each place, goes from conditions through `??` and `===` to properties and
primary expressions in the order of their precedence, and reads template literals inside of
substitutions inside of template literals to any depth.

The reader is cautious: what it accepts, it reads as TypeScript does, and it refuses whatever else
could follow. A level between parentheses has at most one `??`, each operand of it at most one
`===`, and each operand of that at most one property. Calls and tagged templates are refused.

## Main definitions

* `Script.skipSpace`, `Script.word`, `Script.numeral`, `Script.quoted`, `Script.escape`: tokens.
* `Script.parts`: the inside of a template literal.
* `Script.expression`, `Script.read?`: an expression, and a text that is one expression.
-/

namespace Phrasebook.Script

/-! ### Space -/

/-- The characters that end a line. -/
def isLineEnd (c : Char) : Bool := c == '\n' || c == '\r' || c == '\u2028' || c == '\u2029'

/-- The characters of ASCII that separate tokens. -/
def isSpace (c : Char) : Bool :=
  c == ' ' || c == '\t' || c == '\n' || c == '\r' || c == '\x0b' || c == '\x0c'

mutual
/-- A text from its first token on. Comments run to the ends of their lines. -/
def skipSpace : Text → Text
  | [] => []
  | '/' :: '/' :: rest => skipComment rest
  | c :: rest => if isSpace c then skipSpace rest else c :: rest

/-- A text that starts inside of a comment, from its first token on. -/
def skipComment : Text → Text
  | [] => []
  | c :: rest => if isLineEnd c then skipSpace rest else skipComment rest
end

/-- What follows a symbol at the start of a text. -/
def symbol : (spelling : Text) → Text → Option Text
  | [], text => some text
  | _ :: _, [] => none
  | c :: spelling, d :: text => if c = d then symbol spelling text else none

/-- What was read, and what follows a mark after it. -/
def closedBy {α : Type} (mark : Char) : α × Text → Option (α × Text)
  | (value, rest) => (symbol [mark] (skipSpace rest)).map (value, ·)

/-! ### Words and numerals -/

/-- The characters of ASCII that can start a name. -/
def isNameStart (c : Char) : Bool := c.isAlpha || c == '_' || c == '$'

/-- The characters of ASCII that can occur in a name. -/
def isNamePart (c : Char) : Bool := c.isAlphanum || c == '_' || c == '$'

/-- Whether the name in front of a text ends there. It could also go on with an escape, or with a
letter outside of ASCII. -/
def endsName (rest : Text) : Bool :=
  rest.head?.all fun c => !isNamePart c && c != '\\' && c.toNat < 128

/-- A name or a keyword at the start of a text. -/
def word : Text → Option (Text × Text)
  | [] => none
  | c :: rest =>
    let after := rest.dropWhile isNamePart
    if isNameStart c && endsName after then some (c :: rest.takeWhile isNamePart, after)
    else none

/-- The words that cannot be read as names. -/
def reserved : List String := [
  "break", "case", "catch", "class", "const", "continue", "debugger", "default", "delete", "do",
  "else", "enum", "export", "extends", "false", "finally", "for", "function", "if", "import", "in",
  "instanceof", "new", "null", "return", "super", "switch", "this", "throw", "true", "try",
  "typeof", "var", "void", "while", "with", "implements", "interface", "let", "package", "private",
  "protected", "public", "static", "yield", "await", "async"]

/-- A natural number in decimal digits at the start of a text, alone or without a leading zero. -/
def numeral (text : Text) : Option (Nat × Text) :=
  let digits := text.takeWhile Char.isDigit
  let after := text.dropWhile Char.isDigit
  if endsName after && after.head? != some '.' &&
      (digits.length == 1 || digits.head? != some '0') then
    some (digits.foldl (fun n d => 10 * n + (d.toNat - '0'.toNat)) 0, after)
  else none

/-! ### Characters of literals -/

/-- The value of a hexadecimal digit. -/
def hexDigit? (c : Char) : Option Nat :=
  if c.isDigit then some (c.toNat - '0'.toNat)
  else if 'a' ≤ c ∧ c ≤ 'f' then some (c.toNat - 'a'.toNat + 10)
  else if 'A' ≤ c ∧ c ≤ 'F' then some (c.toNat - 'A'.toNat + 10)
  else none

/-- The value of a text of hexadecimal digits. -/
def hexadecimal? (digits : Text) : Option Nat :=
  digits.foldlM (fun n d => (hexDigit? d).map (16 * n + ·)) 0

/-- The character of a code unit. Halves of surrogate pairs are none. -/
def unit? (n : Nat) : Option Char :=
  if 0xD800 ≤ n ∧ n ≤ 0xDFFF then none else some (Char.ofNat n)

/-- The character that a letter after a backslash stands for. -/
def escaped (c : Char) : Char :=
  if c = 'b' then '\x08'
  else if c = 'f' then '\x0c'
  else if c = 'n' then '\n'
  else if c = 'r' then '\r'
  else if c = 't' then '\t'
  else if c = 'v' then '\x0b'
  else c

/-- A text without the line feed in front of it. -/
def dropLineFeed : Text → Text
  | '\n' :: rest => rest
  | text => text

theorem length_dropLineFeed_le (text : Text) : (dropLineFeed text).length ≤ text.length := by
  unfold dropLineFeed
  split <;> simp

/-- What an escape stands for. The text is what follows the backslash. -/
def escape : Text → Option (Text × Text)
  | [] => none
  | 'u' :: a :: b :: c :: d :: rest =>
    ((hexadecimal? [a, b, c, d]).bind unit?).map fun character => ([character], rest)
  | 'x' :: a :: b :: rest =>
    ((hexadecimal? [a, b]).bind unit?).map fun character => ([character], rest)
  | '\r' :: rest => some ([], dropLineFeed rest)
  | c :: rest =>
    if isLineEnd c then some ([], rest)
    else if c = '0' && !(rest.head?.any Char.isDigit) then some (['\x00'], rest)
    else if c.isDigit || c = 'u' || c = 'x' then none
    else some ([escaped c], rest)

/-- The rest of a string literal that ends with a quote. -/
def quoted (quote : Char) : Text → Option (Text × Text)
  | [] => none
  | c :: rest =>
    if c = quote then some ([], rest)
    else if c = '\\' then
      (escape rest).bind fun (characters, after) =>
        if after.length < rest.length then
          (quoted quote after).map fun (more, after) => (characters ++ more, after)
        else none
    else if c = '\n' || c = '\r' then none
    else (quoted quote rest).map fun (more, after) => (c :: more, after)
termination_by text => text.length

/-! ### Expressions -/

/-- The rest of a template literal, with `expr` to read its substitutions. Each way to end a line
by a carriage return counts as a line feed. -/
def parts (expr : Text → Option (Expr × Text)) : Text → Option (Parts × Text)
  | [] => none
  | '$' :: '{' :: rest =>
    ((expr rest).bind (closedBy '}')).bind fun (value, after) =>
      if after.length < rest.length then
        (parts expr after).map fun (more, after) => (.hole [] value more, after)
      else none
  | c :: rest =>
    if c = '`' then some (.last [], rest)
    else if c = '\\' then
      (escape rest).bind fun (characters, after) =>
        if after.length < rest.length then
          (parts expr after).map fun (more, after) => (more.prepend characters, after)
        else none
    else if c = '\r' then
      (parts expr (dropLineFeed rest)).map fun (more, after) => (more.prepend ['\n'], after)
    else (parts expr rest).map fun (more, after) => (more.prepend [c], after)
termination_by text => text.length
decreasing_by
  · simp only [List.length_cons]
    omega
  · simp only [List.length_cons]
    omega
  · exact Nat.lt_succ_of_le (length_dropLineFeed_le rest)
  · exact Nat.lt_succ_self _

/-- A name, a literal or an expression between parentheses. -/
def primary (expr : Text → Option (Expr × Text)) (text : Text) : Option (Expr × Text) :=
  match skipSpace text with
  | [] => none
  | c :: rest =>
    if c = '(' then (expr rest).bind (closedBy ')')
    else if c = '`' then (parts expr rest).map fun (inside, after) => (.template inside, after)
    else if c = '"' || c = '\'' then
      (quoted c rest).map fun (characters, after) => (.string characters, after)
    else if c.isDigit then (numeral (c :: rest)).map fun (n, after) => (.number n, after)
    else
      (word (c :: rest)).bind fun (name, after) =>
        if String.ofList name ∈ reserved then none else some (.name name, after)

/-- A key after a point or a question mark with a point: a name, or an expression between
brackets. -/
def key (expr : Text → Option (Expr × Text)) (text : Text) : Option (Expr × Text) :=
  match skipSpace text with
  | '[' :: rest => (expr rest).bind (closedBy ']')
  | text => (word text).map fun (name, after) => (.string name, after)

/-- A primary expression or a property of one. -/
def member (expr : Text → Option (Expr × Text)) (text : Text) : Option (Expr × Text) :=
  (primary expr text).bind fun (object, rest) =>
    match skipSpace rest with
    | '.' :: after =>
      (word (skipSpace after)).map fun (name, after) => (.member object false (.string name), after)
    | '[' :: after =>
      ((expr after).bind (closedBy ']')).map fun (key, after) => (.member object false key, after)
    | '?' :: '.' :: after =>
      -- Before a digit, the question mark belongs to a condition.
      if after.head?.any Char.isDigit then some (object, rest)
      else (key expr after).map fun (key, after) => (.member object true key, after)
    | '(' :: _ => none
    | '`' :: _ => none
    | _ => some (object, rest)

/-- Operands on one level of precedence, alone or two of them joined by an operator. -/
def binary (operator : Text) (join : Expr → Expr → Expr) (operand : Text → Option (Expr × Text))
    (text : Text) : Option (Expr × Text) :=
  (operand text).bind fun (left, rest) =>
    match symbol operator (skipSpace rest) with
    | none => some (left, rest)
    | some after => (operand after).map fun (right, after) => (join left right, after)

/-- A condition with its two branches, or an expression of higher precedence. -/
def conditional (expr : Text → Option (Expr × Text)) (text : Text) : Option (Expr × Text) :=
  (binary ['?', '?'] .coalesce (binary ['=', '=', '='] .equal (member expr)) text).bind
    fun (test, rest) => match skipSpace rest with
    | '?' :: after =>
      if after.head? = some '?' ∨ after.head? = some '.' then none
      else
        ((expr after).bind (closedBy ':')).bind fun (yes, after) =>
          (expr after).map fun (no, after) => (.conditional test yes no, after)
    | _ => some (test, rest)

/-- An expression. What stands between brackets is shorter than the text that holds it, so the
guard never refuses it. -/
def expression (text : Text) : Option (Expr × Text) :=
  conditional (fun inner => if inner.length < text.length then expression inner else none) text
termination_by text.length

/-- The expression that a whole text is. -/
def read? (text : Text) : Option Expr :=
  (expression text).bind fun (expr, rest) => if (skipSpace rest).isEmpty then some expr else none

/-! ### Tokens that are read -/

theorem skipSpace_cons {c : Char} (hspace : isSpace c = false) (hslash : c ≠ '/') (rest : Text) :
    skipSpace (c :: rest) = c :: rest := by
  rw [skipSpace]
  · simp [hspace]
  · rintro more rfl
    exact absurd rfl hslash

@[simp] theorem skipSpace_of_isSpace {c : Char} (h : isSpace c = true) (rest : Text) :
    skipSpace (c :: rest) = skipSpace rest := by
  rw [skipSpace]
  · simp [h]
  · rintro more rfl
    simp [isSpace] at h

theorem skipSpace_suffix (text : Text) : skipSpace text <:+ text := by
  refine skipSpace.induct (fun text => skipSpace text <:+ text)
    (fun text => skipComment text <:+ text) ?_ ?_ ?_ ?_ ?_ ?_ ?_ text
  · exact List.suffix_refl _
  · intro rest ih
    exact ih.trans ((List.suffix_cons _ _).trans (List.suffix_cons _ _))
  · intro c rest _ hspace ih
    rw [skipSpace_of_isSpace hspace]
    exact ih.trans (List.suffix_cons _ _)
  · intro c rest hcomment hspace
    rw [skipSpace]
    · simp [hspace]
    · exact hcomment
  · exact List.suffix_refl _
  · intro c rest hend ih
    rw [skipComment, if_pos hend]
    exact ih.trans (List.suffix_cons _ _)
  · intro c rest hend ih
    rw [skipComment, if_neg hend]
    exact ih.trans (List.suffix_cons _ _)

/-- No space is skipped in front of a mark. -/
@[simp] theorem skipSpace_mark {c : Char}
    (h : c ∈ ['"', '`', '(', ')', '[', ']', '{', '}', '.', ',', ':', ';', '?', '=', '|'])
    (rest : Text) : skipSpace (c :: rest) = c :: rest := by
  have hspace : isSpace c = false := by
    revert c
    simp [isSpace]
  have hslash : c ≠ '/' := by rintro rfl; exact absurd h (by decide)
  exact skipSpace_cons hspace hslash rest

@[simp] theorem symbol_append (spelling rest : Text) :
    symbol spelling (spelling ++ rest) = some rest := by
  induction spelling with
  | nil => rfl
  | cons c spelling ih => simp [symbol, ih]

/-- A mark closes what stands in front of it. -/
theorem closedBy_cons {α : Type} {c : Char} (hspace : isSpace c = false) (hslash : c ≠ '/')
    (value : α) (rest : Text) : closedBy c (value, c :: rest) = some (value, rest) := by
  simp [closedBy, skipSpace_cons hspace hslash, symbol]

/-- A name is read up to where it ends. -/
theorem word_append {c : Char} {name rest : Text} (hstart : isNameStart c = true)
    (hpart : ∀ d ∈ name, isNamePart d = true) (hend : endsName rest = true) :
    word (c :: name ++ rest) = some (c :: name, rest) := by
  have hdrop : rest.dropWhile isNamePart = rest := by
    cases rest with
    | nil => rfl
    | cons d more => simp_all [endsName]
  have htake : rest.takeWhile isNamePart = [] := by
    cases rest with
    | nil => rfl
    | cons d more => simp_all [endsName]
  simp only [List.cons_append, word, List.dropWhile_append_of_pos hpart,
    List.takeWhile_append_of_pos hpart, hdrop, htake]
  simp [hstart, hend]

/-! ### Insides of template literals that are read -/

section Parts

variable {expr : Text → Option (Expr × Text)}

@[simp] theorem parts_tick (rest : Text) : parts expr ('`' :: rest) = some (.last [], rest) := by
  rw [parts]
  · simp
  · simp

/-- A character that has no meaning of its own in a template literal stands for itself. -/
theorem parts_cons {c : Char} {rest : Text} (hc : c ∉ ['`', '\\', '\r'])
    (hhole : c = '$' → rest.head? ≠ some '{') :
    parts expr (c :: rest) =
      (parts expr rest).map fun (more, after) => (more.prepend [c], after) := by
  simp only [List.mem_cons, List.not_mem_nil, or_false, not_or] at hc
  rw [parts]
  · simp [hc]
  · rintro more hdollar rfl
    exact hhole hdollar rfl

/-- A text in which no substitution starts stands for itself. -/
theorem parts_append {text rest : Text} (htext : ∀ c ∈ text, c ∉ ['`', '\\', '\r'])
    (hhole : ¬ ['$', '{'] <:+: text ++ rest.take 1) :
    parts expr (text ++ rest) =
      (parts expr rest).map fun (more, after) => (more.prepend text, after) := by
  induction text with
  | nil =>
    have hprepend (more : Parts) : more.prepend [] = more := by cases more <;> rfl
    simp [hprepend]
  | cons c text ih =>
    have hprepend (more : Parts) : (more.prepend text).prepend [c] = more.prepend (c :: text) := by
      cases more <;> rfl
    have hnext : c = '$' → (text ++ rest).head? ≠ some '{' := by
      rintro rfl hhead
      refine hhole (List.IsPrefix.isInfix ?_)
      cases text with
      | nil =>
        cases rest with
        | nil => simp at hhead
        | cons d more => simp_all
      | cons d more => simp_all
    rw [List.cons_append, parts_cons (htext c (by simp)) hnext, ih]
    · simp [Function.comp_def, hprepend]
    · exact fun d hd => htext d (by simp [hd])
    · exact fun hstart => hhole (hstart.trans (List.infix_cons (List.infix_refl _)))

/-- A substitution is read up to the brace that closes it. -/
theorem parts_hole {text after : Text} {value : Expr}
    (hvalue : expr text = some (value, '}' :: after)) (hshort : after.length < text.length) :
    parts expr ('$' :: '{' :: text) =
      (parts expr after).map fun (more, rest) => (.hole [] value more, rest) := by
  have hclosed : closedBy '}' (value, '}' :: after) = some (value, after) :=
    closedBy_cons rfl (by decide) _ _
  rw [parts, hvalue, Option.bind_some, hclosed, Option.bind_some]
  simp [hshort]

end Parts

/-! ### Expressions that are read -/

/-- The reader of expressions in texts shorter than a bound. -/
def below (bound : Nat) (text : Text) : Option (Expr × Text) :=
  if text.length < bound then expression text else none

theorem below_of_lt {bound : Nat} {text : Text} (h : text.length < bound) :
    below bound text = expression text := if_pos h

theorem expression_eq (text : Text) : expression text = conditional (below text.length) text := by
  rw [expression]
  rfl

/-- Whether no expression can go on with a text. -/
def endsExpression (rest : Text) : Bool :=
  (skipSpace rest).head?.all fun c => c ∉ ['.', '[', '?', '(', '`', '=']

theorem primary_congr {expr : Text → Option (Expr × Text)} {a b : Text}
    (h : skipSpace a = skipSpace b) : primary expr a = primary expr b := by
  rw [primary, primary, h]

theorem symbol_eq_none {c d : Char} (h : c ≠ d) (spelling rest : Text) :
    symbol (c :: spelling) (d :: rest) = none := by
  simp [symbol, h]

/-- Where an expression ends, no operator follows. -/
theorem symbol_of_endsExpression {c : Char} {rest : Text} (hend : endsExpression rest = true)
    (hc : c ∈ ['?', '=']) (spelling : Text) : symbol (c :: spelling) (skipSpace rest) = none := by
  rw [endsExpression] at hend
  cases hrest : skipSpace rest with
  | nil => rfl
  | cons d more =>
    rw [hrest] at hend
    refine symbol_eq_none ?_ _ _
    rintro rfl
    simp only [List.mem_cons, List.not_mem_nil, or_false] at hc
    rcases hc with rfl | rfl <;> simp at hend

theorem member_of_primary {expr : Text → Option (Expr × Text)} {text rest : Text} {e : Expr}
    (hread : primary expr text = some (e, rest)) (hend : endsExpression rest = true) :
    member expr text = some (e, rest) := by
  rw [member, hread]
  simp only [Option.bind_some]
  rw [endsExpression] at hend
  cases hrest : skipSpace rest with
  | nil => rfl
  | cons c more =>
    rw [hrest] at hend
    split <;> simp_all

/-- A name after a point is the key of a property. -/
theorem member_of_word {expr : Text → Option (Expr × Text)} {text after rest name : Text}
    {object : Expr} (hobject : primary expr text = some (object, '.' :: after))
    (hword : word (skipSpace after) = some (name, rest)) :
    member expr text = some (.member object false (.string name), rest) := by
  simp [member, hobject, hword]

/-- An expression between brackets is the key of a property. -/
theorem member_of_brackets {expr : Text → Option (Expr × Text)} {text after rest : Text}
    {object key : Expr} (hobject : primary expr text = some (object, '[' :: after))
    (hkey : (expr after).bind (closedBy ']') = some (key, rest)) :
    member expr text = some (.member object false key, rest) := by
  rw [member, hobject]
  simp only [Option.bind_some, skipSpace_mark, List.mem_cons, true_or, or_true]
  rw [hkey, Option.map_some]

/-- A property that is read only if there is an object. -/
theorem member_of_optional {expr : Text → Option (Expr × Text)} {text after rest : Text}
    {object k : Expr} (hobject : primary expr text = some (object, '?' :: '.' :: after))
    (hdigit : after.head?.any Char.isDigit = false) (hkey : key expr after = some (k, rest)) :
    member expr text = some (.member object true k, rest) := by
  rw [member, hobject]
  simp [hdigit, hkey]

theorem binary_alone {operator : Text} {join : Expr → Expr → Expr}
    {operand : Text → Option (Expr × Text)} {text rest : Text} {e : Expr}
    (hread : operand text = some (e, rest)) (hnone : symbol operator (skipSpace rest) = none) :
    binary operator join operand text = some (e, rest) := by
  simp [binary, hread, hnone]

theorem binary_joined {operator : Text} {join : Expr → Expr → Expr}
    {operand : Text → Option (Expr × Text)} {text middle after rest : Text} {left right : Expr}
    (hleft : operand text = some (left, middle))
    (hsymbol : symbol operator (skipSpace middle) = some after)
    (hright : operand after = some (right, rest)) :
    binary operator join operand text = some (join left right, rest) := by
  simp [binary, hleft, hsymbol, hright]

theorem conditional_of_test {expr : Text → Option (Expr × Text)} {text rest : Text} {e : Expr}
    (hread : binary ['?', '?'] .coalesce (binary ['=', '=', '='] .equal (member expr)) text =
      some (e, rest))
    (hend : endsExpression rest = true) : conditional expr text = some (e, rest) := by
  rw [conditional, hread]
  simp only [Option.bind_some]
  rw [endsExpression] at hend
  cases hrest : skipSpace rest with
  | nil => rfl
  | cons c more =>
    rw [hrest] at hend
    split <;> simp_all

theorem conditional_of_primary {expr : Text → Option (Expr × Text)} {text rest : Text} {e : Expr}
    (hread : primary expr text = some (e, rest)) (hend : endsExpression rest = true) :
    conditional expr text = some (e, rest) := by
  refine conditional_of_test (binary_alone (binary_alone (member_of_primary hread hend) ?_) ?_) hend
  · exact symbol_of_endsExpression hend (by simp) _
  · exact symbol_of_endsExpression hend (by simp) _

theorem conditional_of_branches {expr : Text → Option (Expr × Text)}
    {text middle afterYes rest : Text} {test yes no : Expr}
    (htest : binary ['?', '?'] .coalesce (binary ['=', '=', '='] .equal (member expr)) text =
      some (test, '?' :: middle))
    (hfirst : middle.head? ≠ some '?' ∧ middle.head? ≠ some '.')
    (hyes : expr middle = some (yes, ':' :: afterYes)) (hno : expr afterYes = some (no, rest)) :
    conditional expr text = some (.conditional test yes no, rest) := by
  have hclosed : closedBy ':' (yes, ':' :: afterYes) = some (yes, afterYes) :=
    closedBy_cons rfl (by decide) _ _
  rw [conditional, htest]
  simp [hfirst, hyes, hclosed, hno]

end Phrasebook.Script
