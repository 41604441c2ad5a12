import Phrasebook.Text.Basic

/-!
# Headers of selects

A select group starts with a header: the name of a variable, a comma, the keyword `select` in any
case, and a comma, with any blanks around the name and the keyword.
-/

namespace Phrasebook.Pattern

open Text

/-- The characters that count as one of the letters of the keyword. The long s folds to `s`. -/
def foldsTo (letter : Char) (c : Char) : Bool :=
  c.toLower == letter || (letter == 's' && c == 'ſ')

/-- What follows a word that a text starts with, in any case of its letters. -/
def dropKeyword : (keyword : Text) → Text → Option Text
  | [], text => some text
  | _ :: _, [] => none
  | letter :: letters, c :: rest =>
    if foldsTo letter c then dropKeyword letters rest else none

/-- What follows a comma with any blanks in front of it. -/
def dropComma (text : Text) : Option Text :=
  match trimStart text with
  | [] => none
  | c :: rest => if c = ',' then some rest else none

/-- The header of a select: the variable that it tests, and the text after the header. -/
structure Header where
  name : Text
  rest : Text
  deriving DecidableEq, Repr

/-- The header that a group content starts with. -/
def Header.read? (content : Text) : Option Header :=
  let text := trimStart content
  let name := text.takeWhile isWordChar
  if name.isEmpty then none
  else
    (dropComma (text.dropWhile isWordChar)).bind fun rest =>
      (dropKeyword "select" (trimStart rest)).bind fun rest =>
        (dropComma rest).map fun rest => ⟨name, rest⟩

/-- Whether a group content is read as a select. -/
def isSelect (content : Text) : Bool :=
  !isPaddedWord content && (Header.read? content).isSome

end Phrasebook.Pattern
