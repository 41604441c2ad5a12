/-!
# Texts

A text is the list of its characters. Everything the library reads or writes is cut, measured and
compared character by character, so lists are the shape that both the programs and their proofs
want. Positions are counted in bytes of UTF-8, through `Text.width`.
-/

namespace Phrasebook

/-- A text is the list of its characters. -/
abbrev Text := List Char

/-- A quoted string stands for the text it spells. -/
instance : Coe String Text := ⟨String.toList⟩

instance : LawfulBEq Text := inferInstance

namespace Text

/-- The number of bytes that a text takes in UTF-8. -/
def width : Text → Nat
  | [] => 0
  | c :: rest => c.utf8Size + width rest

/-- The first `n` bytes of a text, if they end between two characters. -/
def takeBytes (n : Nat) : Text → Option Text
  | [] => if n = 0 then some [] else none
  | c :: rest =>
    if n = 0 then some []
    else if c.utf8Size ≤ n then (takeBytes (n - c.utf8Size) rest).map (c :: ·)
    else none

/-- What follows the first `n` bytes of a text, if they end between two characters. -/
def dropBytes (n : Nat) : Text → Option Text
  | [] => if n = 0 then some [] else none
  | c :: rest =>
    if n = 0 then some (c :: rest)
    else if c.utf8Size ≤ n then dropBytes (n - c.utf8Size) rest
    else none

/-- The decimal numeral of a natural number, without leading zeros. -/
def decimal (n : Nat) : Text := Nat.toDigits 10 n

/-- The decimal numeral of an integer, with a minus sign in front of a negative one. -/
def signedDecimal : Int → Text
  | .ofNat n => decimal n
  | .negSucc n => '-' :: decimal (n + 1)

/-- Texts with a separator between them. -/
def joinWith (separator : Text) (parts : List Text) : Text := List.intercalate separator parts

/-- Whether a text is not after another one, in the order of code points. -/
def notAfter (a b : Text) : Bool := !List.lex b a fun c d => c.toNat < d.toNat

/-- A text between backticks. -/
def ticked (text : Text) : Text := '`' :: text ++ ['`']

/-- The parts of a text between the occurrences of `separator`; there is always at least one. -/
def fields (separator : Char) : Text → List Text
  | [] => [[]]
  | c :: rest =>
    if c = separator then [] :: fields separator rest
    else
      match fields separator rest with
      | [] => [[c]]
      | first :: others => (c :: first) :: others

/-- What precedes and what follows the first `separator`, if there is one. -/
def splitFirst (separator : Char) : Text → Option (Text × Text)
  | [] => none
  | c :: rest =>
    if c = separator then some ([], rest)
    else (splitFirst separator rest).map fun (before, after) => (c :: before, after)

/-- What precedes and what follows the last `separator`, if there is one. -/
def splitLast (separator : Char) (text : Text) : Option (Text × Text) :=
  (splitFirst separator text.reverse).map fun (after, before) => (before.reverse, after.reverse)

/-! ### Widths -/

@[simp] theorem width_nil : width [] = 0 := rfl

@[simp] theorem width_cons (c : Char) (rest : Text) :
    width (c :: rest) = c.utf8Size + width rest := rfl

@[simp] theorem width_append (a b : Text) : width (a ++ b) = width a + width b := by
  induction a with
  | nil => simp
  | cons c rest ih => simp [ih, Nat.add_assoc]

/-- The bytes of the first of two texts are cut off as that text. -/
@[simp] theorem takeBytes_width_append (a b : Text) : takeBytes (width a) (a ++ b) = some a := by
  induction a with
  | nil => cases b <;> simp [takeBytes]
  | cons c rest ih =>
    have := c.utf8Size_pos
    rw [List.cons_append, takeBytes, if_neg (by simp only [width_cons]; omega),
      if_pos (by simp), width_cons, Nat.add_sub_cancel_left, ih, Option.map_some]

/-- The second of two texts follows the bytes of the first one. -/
@[simp] theorem dropBytes_width_append (a b : Text) : dropBytes (width a) (a ++ b) = some b := by
  induction a with
  | nil => cases b <;> simp [dropBytes]
  | cons c rest ih =>
    have := c.utf8Size_pos
    rw [List.cons_append, dropBytes, if_neg (by simp only [width_cons]; omega),
      if_pos (by simp), width_cons, Nat.add_sub_cancel_left, ih]

/-! ### Ranges of characters

Properties of characters are given by tables of ranges of code points, as of version 17 of Unicode.
-/

/-- Inclusive ranges of code points. -/
abbrev Ranges := List (Nat × Nat)

/-- Whether a character lies in one of the ranges. -/
def Ranges.contains (ranges : Ranges) (c : Char) : Bool :=
  ranges.any fun (low, high) => low ≤ c.toNat && c.toNat ≤ high

/-! ### Blanks and words

Blanks are the characters with the Unicode property `White_Space`. They may surround a name or a
label without being part of it, so `Text.trim` takes them off both ends. A word is a run of ASCII
letters, digits and underscores.
-/

/-- The characters with the Unicode property `White_Space`. -/
def isBlank (c : Char) : Bool :=
  let n := c.toNat
  (0x9 ≤ n && n ≤ 0xD) || n == 0x20 || n == 0x85 || n == 0xA0 || n == 0x1680 ||
    (0x2000 ≤ n && n ≤ 0x200A) || n == 0x2028 || n == 0x2029 || n == 0x202F || n == 0x205F ||
    n == 0x3000

/-- ASCII letters, digits and the underscore. -/
def isWordChar (c : Char) : Bool :=
  c.isAlphanum || c == '_'

/-- A text without the blanks in front of it. -/
def trimStart (text : Text) : Text := text.dropWhile isBlank

/-- A text without the blanks after it. -/
def trimEnd (text : Text) : Text := (text.reverse.dropWhile isBlank).reverse

/-- A text without the blanks around it. -/
def trim (text : Text) : Text := trimEnd (trimStart text)

/-- Whether a text is a non-empty word with any blanks around it. -/
def isPaddedWord (text : Text) : Bool :=
  let word := trim text
  !word.isEmpty && word.all isWordChar

/-! ### Quoted texts

A quoted text stands between double quotes. Quotes and backslashes inside it are escaped, and so is
every character below the space: by a letter where one is customary, and by four hexadecimal digits
otherwise. This is the form of a JSON string, and every such form is also a TypeScript string
literal.
-/

/-- A hexadecimal digit, in lower case. -/
def hexDigit (n : Nat) : Char := Nat.digitChar (n % 16)

/-- How a character is written between quotes. -/
def escape (c : Char) : Text :=
  if c = '"' then ['\\', '"']
  else if c = '\\' then ['\\', '\\']
  else if c = '\x08' then ['\\', 'b']
  else if c = '\x0c' then ['\\', 'f']
  else if c = '\n' then ['\\', 'n']
  else if c = '\r' then ['\\', 'r']
  else if c = '\t' then ['\\', 't']
  else if c.toNat < 0x20 then
    ['\\', 'u', '0', '0', hexDigit (c.toNat / 16), hexDigit c.toNat]
  else [c]

/-- A text between quotes. -/
def quote (text : Text) : Text := '"' :: text.flatMap escape ++ ['"']

end Text

end Phrasebook
