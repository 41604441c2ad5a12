import Phrasebook.Json.Basic
import Phrasebook.Json.Fault

/-!
# Scanning JSON

The parts of a JSON text that hold no others: blanks, words, numbers and strings. A cursor is the
rest of the text with the number of bytes in front of it. A fault is located either right behind
what has been consumed, or at the next byte, where something else was due.

## Main definitions

* `Cursor`, `Reading`: where reading stands, and what it gives.
* `Cursor.skipBlanks`, `scanWord`, `scanNumber`, `scanString`.
-/

namespace Phrasebook.Json

/-- The rest of a text, and the number of bytes in front of it. -/
structure Cursor where
  rest : Text
  offset : Nat
  deriving DecidableEq, Repr

/-- What reading gives: a result, or a located fault. -/
abbrev Reading := Except Located

/-- A fault behind the first `offset` bytes. -/
def fault {α : Type} (cause : Fault) (offset : Nat) : Reading α :=
  .error ⟨cause, offset⟩

namespace Cursor

/-- The offset behind the next byte; at the end of the text, the end. -/
def peekOffset (c : Cursor) : Nat := if c.rest.isEmpty then c.offset else c.offset + 1

/-- A fault at the next byte. -/
def peekFault {α : Type} (c : Cursor) (cause : Fault) : Reading α :=
  fault cause c.peekOffset

/-- The cursor behind the next character, for characters of one byte. -/
def advance (c : Cursor) : Cursor := ⟨c.rest.tail, c.offset + 1⟩

/-- The blanks between the parts of a JSON text. -/
def isBlank (c : Char) : Bool := c == ' ' || c == '\t' || c == '\n' || c == '\r'

/-- The cursor behind any blanks. -/
def skipBlanks (c : Cursor) : Cursor :=
  ⟨c.rest.dropWhile isBlank, c.offset + (c.rest.takeWhile isBlank).length⟩

end Cursor

/-! ### Words -/

/-- Consumes a word, letter by letter. -/
def scanWord : (word : Text) → Cursor → Reading Cursor
  | [], c => .ok c
  | letter :: letters, c =>
    match c.rest with
    | [] => fault .endInValue c.offset
    | x :: _ =>
      if x = letter then scanWord letters c.advance else fault .expectedIdent (c.offset + 1)

/-! ### Numbers -/

/-- The number that a run of decimal digits spells. -/
def digitsValue (digits : Text) : Nat :=
  digits.foldl (fun n c => 10 * n + (c.toNat - '0'.toNat)) 0

/-- The digits that a text goes on with, and where reading goes on behind them. -/
def scanDigits (c : Cursor) : Text × Cursor :=
  let digits := c.rest.takeWhile Char.isDigit
  (digits, ⟨c.rest.dropWhile Char.isDigit, c.offset + digits.length⟩)

/-- The digits in front of the point. Only a number below one starts with zero. -/
def scanWhole (c : Cursor) : Reading (Text × Cursor) :=
  match c.rest with
  | [] => fault .endInValue c.offset
  | x :: _ =>
    if x = '0' then
      let c := c.advance
      match c.rest with
      | [] => .ok (['0'], c)
      | y :: _ => if y.isDigit then c.peekFault .invalidNumber else .ok (['0'], c)
    else if x.isDigit then .ok (scanDigits c)
    else fault .invalidNumber (c.offset + 1)

/-- The digits after the point, if there is one. -/
def scanFraction (c : Cursor) : Reading (Option Text × Cursor) :=
  match c.rest with
  | [] => .ok (none, c)
  | x :: _ =>
    if x = '.' then
      let (digits, next) := scanDigits c.advance
      if digits.isEmpty then
        if next.rest.isEmpty then next.peekFault .endInValue else next.peekFault .invalidNumber
      else .ok (some digits, next)
    else .ok (none, c)

/-- An exponent: its sign, and its digits. -/
structure Exponent where
  negative : Bool
  digits : Text

/-- The largest exponent that is taken as it stands. -/
def exponentBound : Nat := 2147483647

/-- The least number of digits of an exponent that exceed the bound, if they do. -/
def exceedingDigits? (digits : Text) : Option Nat :=
  (List.range digits.length).map (· + 1) |>.find? fun n =>
    exponentBound < digitsValue (digits.take n)

/-- The exponent, if there is one. -/
def scanExponent (c : Cursor) : Reading (Option Exponent × Cursor) :=
  match c.rest with
  | [] => .ok (none, c)
  | x :: _ =>
    if x = 'e' ∨ x = 'E' then
      let c := c.advance
      let negative := c.rest.head? == some '-'
      let c := if negative || c.rest.head? == some '+' then c.advance else c
      match c.rest with
      | [] => fault .endInValue c.offset
      | y :: _ =>
        if y.isDigit then
          let (digits, next) := scanDigits c
          .ok (some ⟨negative, digits⟩, next)
        else fault .invalidNumber (c.offset + 1)
    else .ok (none, c)

/-- The integer of a sign and a magnitude, if it has at most 64 bits. Minus zero is no integer. -/
def integer? (negative : Bool) (magnitude : Nat) : Option Int :=
  if negative then
    if 0 < magnitude ∧ magnitude ≤ Nat.pow 2 63 then some (-magnitude) else none
  else if magnitude < Nat.pow 2 64 then some magnitude else none

/-- The nearest double to a decimal whose text ends at a cursor. -/
def roundedAt (negative : Bool) (digits : Nat) (power : Int) (c : Cursor) :
    Reading (Number × Cursor) :=
  match Double.ofDecimal? negative digits power with
  | some x => .ok (.double x, c)
  | none => fault .numberOutOfRange c.offset

/-- The number of a sign, the digits around the point and an exponent. -/
def numberOf (negative : Bool) (whole : Text) (fraction : Option Text)
    (exponent : Option Exponent) (c : Cursor) : Reading (Number × Cursor) :=
  let places := fraction.getD []
  let digits := digitsValue (whole ++ places)
  match exponent with
  | none =>
    match fraction, integer? negative digits with
    | none, some n => .ok (.integer n, c)
    | _, _ => roundedAt negative digits (-places.length) c
  | some e =>
    match exceedingDigits? e.digits with
    | some n =>
      -- The exponent is out of all proportion: the number is zero or has no double.
      if digits = 0 ∨ e.negative then .ok (.double ⟨negative, 0⟩, c)
      else fault .numberOutOfRange (c.offset - e.digits.length + n)
    | none =>
      let shift : Int := digitsValue e.digits
      roundedAt negative digits ((if e.negative then -shift else shift) - places.length) c

/-- A number. The text goes on with a digit or a minus sign. -/
def scanNumber (c : Cursor) : Reading (Number × Cursor) := do
  let negative := c.rest.head? == some '-'
  let (whole, c) ← scanWhole (if negative then c.advance else c)
  let (fraction, c) ← scanFraction c
  let (exponent, c) ← scanExponent c
  numberOf negative whole fraction exponent c

/-! ### Strings -/

/-- The value of a hexadecimal digit. -/
def hexValue? (c : Char) : Option Nat :=
  let n := c.toNat
  if '0'.toNat ≤ n ∧ n ≤ '9'.toNat then some (n - '0'.toNat)
  else if 'a'.toNat ≤ n ∧ n ≤ 'f'.toNat then some (n - 'a'.toNat + 10)
  else if 'A'.toNat ≤ n ∧ n ≤ 'F'.toNat then some (n - 'A'.toNat + 10)
  else none

/-- The value of four hexadecimal digits. -/
def hexValue4? (a b c d : Char) : Option Nat := do
  return 4096 * (← hexValue? a) + 256 * (← hexValue? b) + 16 * (← hexValue? c) + (← hexValue? d)

/-- The fault of four hexadecimal digits that are not there, behind `offset` bytes. -/
def hexFault {α : Type} (offset : Nat) (text : Text) : Reading α :=
  let width := Text.width text
  if width < 4 then fault .endInString (offset + width) else fault .invalidEscape (offset + 4)

/-- The first halves of surrogate pairs. -/
def isHighSurrogate (n : Nat) : Bool := 0xD800 ≤ n && n ≤ 0xDBFF

/-- The second halves of surrogate pairs. -/
def isLowSurrogate (n : Nat) : Bool := 0xDC00 ≤ n && n ≤ 0xDFFF

/-- The character of a surrogate pair. -/
def surrogatePair (high low : Nat) : Char :=
  Char.ofNat (0x10000 + (high - 0xD800) * 0x400 + (low - 0xDC00))

/-- The character that a letter behind a backslash stands for. -/
def unescape? (letter : Char) : Option Char :=
  if letter = '"' then some '"'
  else if letter = '\\' then some '\\'
  else if letter = '/' then some '/'
  else if letter = 'b' then some '\x08'
  else if letter = 'f' then some '\x0c'
  else if letter = 'n' then some '\n'
  else if letter = 'r' then some '\r'
  else if letter = 't' then some '\t'
  else none

/-- A string with one more character in front. -/
def consChar (c : Char) : Reading (Text × Cursor) → Reading (Text × Cursor)
  | .ok (text, next) => .ok (c :: text, next)
  | .error e => .error e

/-- The rest of a string, up to and with the closing quote. -/
def scanStringRest (offset : Nat) : Text → Reading (Text × Cursor)
  | [] => fault .endInString offset
  | c :: rest =>
    if c = '"' then .ok ([], ⟨rest, offset + 1⟩)
    else if c = '\\' then
      match rest with
      | [] => fault .endInString (offset + 1)
      | letter :: rest =>
        if letter = 'u' then
          match rest with
          | d₁ :: d₂ :: d₃ :: d₄ :: tail =>
            match hexValue4? d₁ d₂ d₃ d₄ with
            | none => hexFault (offset + 2) rest
            | some high =>
              if isLowSurrogate high then fault .loneSurrogate (offset + 6)
              else if isHighSurrogate high then
                match tail with
                | [] => fault .endInString (offset + 6)
                | slash :: tail =>
                  if slash = '\\' then
                    match tail with
                    | [] => fault .endInString (offset + 7)
                    | u :: tail =>
                      if u = 'u' then
                        match tail with
                        | e₁ :: e₂ :: e₃ :: e₄ :: tail' =>
                          match hexValue4? e₁ e₂ e₃ e₄ with
                          | none => hexFault (offset + 8) tail
                          | some low =>
                            if isLowSurrogate low then
                              consChar (surrogatePair high low) (scanStringRest (offset + 12) tail')
                            else fault .loneSurrogate (offset + 12)
                        | _ => hexFault (offset + 8) tail
                      else fault .endOfHexEscape (offset + 8)
                  else fault .endOfHexEscape (offset + 7)
              else consChar (Char.ofNat high) (scanStringRest (offset + 6) tail)
          | _ => hexFault (offset + 2) rest
        else
          match unescape? letter with
          | some c => consChar c (scanStringRest (offset + 2) rest)
          | none => fault .invalidEscape (offset + 2)
    else if c.toNat < 0x20 then fault .controlCharacter (offset + 1)
    else consChar c (scanStringRest (offset + c.utf8Size) rest)

/-- A string. The text goes on with its opening quote. -/
def scanString (c : Cursor) : Reading (Text × Cursor) := scanStringRest (c.offset + 1) c.rest.tail

end Phrasebook.Json
