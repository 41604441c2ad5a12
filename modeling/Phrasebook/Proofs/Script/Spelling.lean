import Phrasebook.Proofs.Script.Reader
import Phrasebook.Proofs.Text.Basic
import Phrasebook.Template
import Mathlib.Tactic.SplitIfs

/-!
# Spellings that are read back

The pieces from which generated code is put together are read as what they spell: quoted texts as
their texts, accesses as properties of the record `v`, and plain characters of a template literal
as themselves.
-/

namespace Phrasebook.Script

open Template

/-! ### Quoted texts -/

theorem hexDigit?_hexDigit (n : Nat) : hexDigit? (Text.hexDigit n) = some (n % 16) := by
  have hlt : n % 16 < 16 := Nat.mod_lt _ (by omega)
  rw [Text.hexDigit]
  generalize n % 16 = d at hlt
  revert d
  decide

/-- The four digits of a control character stand for that character. -/
theorem escape_control {c : Char} (h : c.toNat < 0x20) (rest : Text) :
    escape ('u' :: '0' :: '0' :: Text.hexDigit (c.toNat / 16) :: Text.hexDigit c.toNat :: rest) =
      some ([c], rest) := by
  have hvalue : hexadecimal? ['0', '0', Text.hexDigit (c.toNat / 16), Text.hexDigit c.toNat] =
      some c.toNat := by
    have hzero : hexDigit? '0' = some 0 := by decide
    simp only [hexadecimal?, List.foldlM_cons, List.foldlM_nil, hexDigit?_hexDigit, hzero,
      Option.map_some, Option.bind_eq_bind, Option.bind_some, Option.pure_def]
    congr 1
    omega
  have hunit : unit? c.toNat = some c := by
    rw [unit?, if_neg (by omega), Char.ofNat_toNat]
  rw [escape, hvalue, Option.bind_some, hunit]
  rfl

/-- An escape by a single letter is read as the character that the letter stands for. -/
theorem quoted_letter {letter : Char} (h : letter ∈ ['"', '\\', 'b', 'f', 'n', 'r', 't'])
    (rest : Text) :
    quoted '"' ('\\' :: letter :: rest) =
      (quoted '"' rest).map fun (more, after) => (escaped letter :: more, after) := by
  have hescape : escape (letter :: rest) = some ([escaped letter], rest) := by
    simp only [List.mem_cons, List.not_mem_nil, or_false] at h
    rcases h with rfl | rfl | rfl | rfl | rfl | rfl | rfl <;> rfl
  rw [quoted]
  simp [hescape]

/-- One character of a quoted text is read back. -/
theorem quoted_escape (c : Char) (rest : Text) :
    quoted '"' (Text.escape c ++ rest) =
      (quoted '"' rest).map fun (more, after) => (c :: more, after) := by
  rw [Text.escape]
  -- Seven characters have a letter of their own, other control characters have four digits, and
  -- the rest stand for themselves.
  split_ifs with h₁ h₂ h₃ h₄ h₅ h₆ h₇ h₈
  · subst h₁; exact quoted_letter (by simp) rest
  · subst h₂; exact quoted_letter (by simp) rest
  · subst h₃; exact quoted_letter (by simp) rest
  · subst h₄; exact quoted_letter (by simp) rest
  · subst h₅; exact quoted_letter (by simp) rest
  · subst h₆; exact quoted_letter (by simp) rest
  · subst h₇; exact quoted_letter (by simp) rest
  · have hlength : rest.length < ('u' :: '0' :: '0' :: Text.hexDigit (c.toNat / 16) ::
        Text.hexDigit c.toNat :: rest).length := by
      simp only [List.length_cons]
      omega
    simp only [List.cons_append, List.nil_append]
    rw [quoted, if_neg (by decide), if_pos rfl, escape_control h₈, Option.bind_some]
    simp only [if_pos hlength, List.singleton_append]
  · simp only [List.singleton_append]
    rw [quoted, if_neg h₁, if_neg h₂, if_neg (by simp [h₅, h₆])]

/-- A quoted text is read back. -/
theorem quoted_flatMap_escape (text rest : Text) :
    quoted '"' (text.flatMap Text.escape ++ '"' :: rest) = some (text, rest) := by
  induction text with
  | nil => simp [quoted]
  | cons c text ih => simp [List.flatMap_cons, List.append_assoc, quoted_escape, ih]

theorem primary_quote (expr : Text → Option (Expr × Text)) (text rest : Text) :
    primary expr (Text.quote text ++ rest) = some (.string text, rest) := by
  simp [primary, Text.quote, quoted_flatMap_escape]

theorem skipSpace_quote (text rest : Text) :
    skipSpace (Text.quote text ++ rest) = Text.quote text ++ rest := by
  simp [Text.quote]

/-- A quoted text is read as a string. -/
theorem expression_quote {text key rest : Text} (htext : skipSpace text = Text.quote key ++ rest)
    (hend : endsExpression rest = true) : expression text = some (.string key, rest) := by
  rw [expression_eq]
  refine conditional_of_primary ?_ hend
  rw [primary_congr (htext.trans (skipSpace_quote key rest).symm), primary_quote]

/-! ### Accesses -/

/-- What an access to a property of the record is read as. -/
def recordField (optional : Bool) (name : Text) : Expr :=
  .member (.name ['v']) optional (.string name)

/-- The names that generated code binds are read as names. -/
theorem primary_name {x : Char} (hx : x = 'v' ∨ x = 'p') (expr : Text → Option (Expr × Text))
    (rest : Text) (hend : endsName rest = true) :
    primary expr (x :: rest) = some (.name [x], rest) := by
  have hword (hstart : isNameStart x = true) : word (x :: rest) = some ([x], rest) :=
    @word_append x [] rest hstart (by simp) hend
  have hreserved : String.ofList [x] ∉ reserved := by rcases hx with rfl | rfl <;> decide
  have hspace (h₁ : isSpace x = false) (h₂ : x ≠ '/') := skipSpace_cons h₁ h₂ rest
  rcases hx with rfl | rfl <;>
    simp [primary, hspace rfl (by decide), hword rfl, hreserved]

/-- A name that is written without quotes is read up to where it ends. -/
theorem word_of_isIdentifier {name rest : Text} (hname : isIdentifier name = true)
    (hend : endsName rest = true) : word (name ++ rest) = some (name, rest) := by
  cases name with
  | nil => simp [isIdentifier] at hname
  | cons c more =>
    simp only [isIdentifier, Bool.and_eq_true, List.all_eq_true] at hname
    exact word_append hname.1 hname.2 hend

/-- No identifier starts with a mark. -/
theorem ne_cons_of_isIdentifier {name : Text} (hname : isIdentifier name = true) {c : Char}
    (hc : isIdentifierStart c = false) (rest more : Text) : name ++ rest ≠ c :: more := by
  cases name with
  | nil => simp [isIdentifier] at hname
  | cons first name =>
    intro h
    obtain ⟨rfl, -⟩ := List.cons.inj h
    simp [isIdentifier, hc] at hname

theorem isSpace_of_isNameStart {c : Char} (h : isNameStart c = true) : isSpace c = false := by
  cases hspace : isSpace c with
  | false => rfl
  | true =>
    simp only [isSpace, Bool.or_eq_true, beq_iff_eq] at hspace
    rcases hspace with ((((rfl | rfl) | rfl) | rfl) | rfl) | rfl <;> exact absurd h (by decide)

/-- An identifier starts with no space. -/
theorem skipSpace_of_isIdentifier {name : Text} (hname : isIdentifier name = true) (rest : Text) :
    skipSpace (name ++ rest) = name ++ rest := by
  cases name with
  | nil => simp [isIdentifier] at hname
  | cons c more =>
    have hstart : isNameStart c = true := (Bool.and_eq_true _ _ ▸ hname : _ ∧ _).1
    refine skipSpace_cons (isSpace_of_isNameStart hstart) ?_ _
    rintro rfl
    exact absurd hstart (by decide)

/-- A key that is an identifier is read up to where it ends. -/
theorem key_of_isIdentifier {name rest : Text} (expr : Text → Option (Expr × Text))
    (hname : isIdentifier name = true) (hend : endsName rest = true) :
    key expr (name ++ rest) = some (.string name, rest) := by
  rw [key, skipSpace_of_isIdentifier hname rest]
  split
  · next more hmark => exact absurd hmark (ne_cons_of_isIdentifier hname rfl _ _)
  · rw [word_of_isIdentifier hname hend, Option.map_some]

/-- A quoted key between brackets is read back, if it is short enough. -/
theorem below_quote_closedBy {name rest : Text} {bound : Nat}
    (hbound : (Text.quote name ++ ']' :: rest).length < bound) :
    (below bound (Text.quote name ++ ']' :: rest)).bind (closedBy ']') =
      some (.string name, rest) := by
  have hend : endsExpression (']' :: rest) = true := by
    simp [endsExpression]
  rw [below_of_lt hbound, expression_quote (skipSpace_quote _ _) hend, Option.bind_some]
  exact closedBy_cons rfl (by decide) _ _

/-- No identifier starts with a digit. -/
theorem head?_isDigit_of_isIdentifier {name : Text} (hname : isIdentifier name = true)
    (rest : Text) : (name ++ rest).head?.any Char.isDigit = false := by
  cases name with
  | nil => simp [isIdentifier] at hname
  | cons c more =>
    simp only [isIdentifier, isIdentifierStart, Bool.and_eq_true, Bool.or_eq_true, beq_iff_eq]
      at hname
    rcases hname.1 with (halpha | rfl) | rfl
    · rw [Text.isAlpha_iff] at halpha
      rw [List.cons_append, List.head?_cons, Option.any_some, Bool.eq_false_iff, ne_eq,
        Text.isDigit_iff]
      omega
    · rfl
    · rfl

/-- The access to a property is read as that property. -/
theorem member_access {how : Access} {name rest : Text} {bound : Nat}
    (hbound : (access how name ++ rest).length ≤ bound) (hend : endsName rest = true) :
    member (below bound) (access how name ++ rest) =
      some (recordField (how = .optional) name, rest) := by
  have hobject (more : Text) (hmore : endsName more = true) :=
    primary_name (.inl rfl) (below bound) more hmore
  by_cases hname : isIdentifier name = true
  · have hspace := skipSpace_of_isIdentifier hname rest
    have hword := word_of_isIdentifier hname hend
    cases how with
    | direct =>
      simp only [access, if_pos hname]
      exact member_of_word (hobject _ rfl) (hspace.symm ▸ hword)
    | optional =>
      simp only [access, if_pos hname]
      exact member_of_optional (hobject _ rfl) (head?_isDigit_of_isIdentifier hname rest)
        (key_of_isIdentifier _ hname hend)
  · have hlength : (Text.quote name ++ ']' :: rest).length < (access how name ++ rest).length := by
      cases how <;> simp +arith [access, hname]
    have hkey := below_quote_closedBy (Nat.lt_of_lt_of_le hlength hbound)
    cases how with
    | direct =>
      simp only [access, if_neg hname, List.append_assoc]
      exact member_of_brackets (hobject _ rfl) hkey
    | optional =>
      simp only [access, if_neg hname, List.append_assoc]
      have hbracket : key (below bound) ('[' :: (Text.quote name ++ ']' :: rest)) =
          some (.string name, rest) := by
        simpa [key] using hkey
      exact member_of_optional (hobject _ rfl) rfl hbracket

end Phrasebook.Script
