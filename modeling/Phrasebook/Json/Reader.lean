import Phrasebook.Json.Scanner

/-!
# Reading JSON

A JSON text is one value with blanks around it. Arrays and objects may be nested in at most 127
levels. Arrays and objects are read item by item, so whatever asks for a shape of its own can stop
at the first item that does not fit.
-/

namespace Phrasebook.Json

/-- The number of levels of arrays and objects that a text may nest. -/
def depthLimit : Nat := 127

/-- How an array or an object goes on: with one more item at a cursor, or not, in which case
reading goes on behind the closing bracket. -/
inductive Next where
  | more (c : Cursor)
  | done (c : Cursor)

/-- How an array goes on, after the opening bracket or after an item. -/
def nextItem (first : Bool) (c : Cursor) : Reading Next :=
  let c := c.skipBlanks
  match c.rest with
  | [] => c.peekFault .endInArray
  | x :: _ =>
    if x = ']' then .ok (.done c.advance)
    else if first then .ok (.more c)
    else if x = ',' then
      let c := c.advance.skipBlanks
      match c.rest with
      | [] => c.peekFault .endInValue
      | y :: _ => if y = ']' then c.peekFault .trailingComma else .ok (.more c)
    else c.peekFault .expectedArrayEnd

/-- The items of an array, after the opening bracket or after an item, at most `fuel` of them. -/
def readItems {α : Type} (item : Cursor → Reading (α × Cursor)) (fuel : Nat) (first : Bool)
    (c : Cursor) : Reading (List α × Cursor) :=
  match fuel with
  | 0 => c.peekFault .endInArray
  | fuel + 1 => do
    match ← nextItem first c with
    | .done c => return ([], c)
    | .more c =>
      let (value, c) ← item c
      let (values, c) ← readItems item fuel false c
      return (value :: values, c)

/-- An array after its opening bracket. -/
def readArray {α : Type} (item : Cursor → Reading (α × Cursor)) (c : Cursor) :
    Reading (List α × Cursor) :=
  readItems item (c.rest.length + 1) true c

/-- How an object goes on, after the opening brace or after a member. -/
def nextKey (first : Bool) (c : Cursor) : Reading Next :=
  let c := c.skipBlanks
  match c.rest with
  | [] => c.peekFault .endInObject
  | x :: _ =>
    if x = '}' then .ok (.done c.advance)
    else if first then
      if x = '"' then .ok (.more c) else c.peekFault .keyNotString
    else if x = ',' then
      let c := c.advance.skipBlanks
      match c.rest with
      | [] => c.peekFault .endInValue
      | y :: _ =>
        if y = '"' then .ok (.more c)
        else if y = '}' then c.peekFault .trailingComma
        else c.peekFault .keyNotString
    else c.peekFault .expectedObjectEnd

/-- The cursor behind the colon after a key. -/
def skipColon (c : Cursor) : Reading Cursor :=
  let c := c.skipBlanks
  match c.rest with
  | [] => c.peekFault .endInObject
  | x :: _ => if x = ':' then .ok c.advance else c.peekFault .expectedColon

/-- What becomes of `state` over the members of an object, after the opening brace or after
a member, at most `fuel` of them. Each member is read from behind its key. -/
def readMembers {σ : Type} (member : σ → Text → Cursor → Reading (σ × Cursor)) (fuel : Nat)
    (first : Bool) (state : σ) (c : Cursor) : Reading (σ × Cursor) :=
  match fuel with
  | 0 => c.peekFault .endInObject
  | fuel + 1 => do
    match ← nextKey first c with
    | .done c => return (state, c)
    | .more c =>
      let (key, c) ← scanString c
      let (state, c) ← member state key c
      readMembers member fuel false state c

/-- What becomes of `state` over the members of an object after its opening brace. -/
def readObject {σ : Type} (member : σ → Text → Cursor → Reading (σ × Cursor)) (state : σ)
    (c : Cursor) : Reading (σ × Cursor) :=
  readMembers member (c.rest.length + 1) true state c

/-- The members so far with one more, which is read from behind its key. -/
def readMember (value : Cursor → Reading (Json × Cursor)) (members : List (Text × Json))
    (key : Text) (c : Cursor) : Reading (List (Text × Json) × Cursor) := do
  let c ← skipColon c
  let (value, c) ← value c
  return (insertMember key value members, c)

/-- A value, with any blanks in front of it and room for so many levels of arrays and objects. -/
def readValue (room : Nat) (c : Cursor) : Reading (Json × Cursor) :=
  let c := c.skipBlanks
  match c.rest with
  | [] => c.peekFault .endInValue
  | x :: _ =>
    if x = 'n' then do return (null, ← scanWord "null" c)
    else if x = 't' then do return (bool true, ← scanWord "true" c)
    else if x = 'f' then do return (bool false, ← scanWord "false" c)
    else if x = '-' ∨ x.isDigit then do
      let (value, c) ← scanNumber c
      return (number value, c)
    else if x = '"' then do
      let (value, c) ← scanString c
      return (string value, c)
    else if x = '[' then
      match room with
      | 0 => c.peekFault .tooDeep
      | room + 1 => do
        let (items, c) ← readArray (readValue room) c.advance
        return (array items, c)
    else if x = '{' then
      match room with
      | 0 => c.peekFault .tooDeep
      | room + 1 => do
        let (members, c) ← readObject (readMember (readValue room)) [] c.advance
        return (object members, c)
    else c.peekFault .expectedValue

/-- A result with nothing but blanks behind it. -/
def finish {α : Type} (value : α) (c : Cursor) : Reading α :=
  let c := c.skipBlanks
  if c.rest.isEmpty then .ok value else c.peekFault .trailingCharacters

/-- The value of a text. -/
def read (text : Text) : Reading Json := do
  let (value, c) ← readValue depthLimit ⟨text, 0⟩
  finish value c

/-! ### Values of a kind that is asked for -/

/-- The fault of a value of another kind than the one asked for. A scalar is read first; an array
or an object is not entered. -/
def wrongKind {α : Type} (expected : Text) (c : Cursor) : Reading α :=
  let refuse (found : Found) (c : Cursor) : Reading α :=
    fault (.wrongKind found expected) c.offset
  match c.rest with
  | [] => c.peekFault .endInValue
  | x :: _ =>
    if x = 'n' then do refuse .null (← scanWord "null" c)
    else if x = 't' then do refuse (.boolean true) (← scanWord "true" c)
    else if x = 'f' then do refuse (.boolean false) (← scanWord "false" c)
    else if x = '-' ∨ x.isDigit then do
      let (value, c) ← scanNumber c
      refuse (.number value) c
    else if x = '"' then do
      let (value, c) ← scanString c
      refuse (.string value) c
    else if x = '[' then refuse .array c
    else if x = '{' then refuse .object c
    else c.peekFault .expectedValue

/-- A string, which messages call `expected`. -/
def readString (expected : Text) (c : Cursor) : Reading (Text × Cursor) :=
  let c := c.skipBlanks
  if c.rest.head? = some '"' then scanString c else wrongKind expected c

/-- A truth value. -/
def readBool (c : Cursor) : Reading (Bool × Cursor) :=
  let c := c.skipBlanks
  if c.rest.head? = some 't' then do return (true, ← scanWord "true" c)
  else if c.rest.head? = some 'f' then do return (false, ← scanWord "false" c)
  else wrongKind "a boolean" c

/-- A value that may be null. -/
def readOptional {α : Type} (value : Cursor → Reading (α × Cursor)) (c : Cursor) :
    Reading (Option α × Cursor) :=
  let c := c.skipBlanks
  if c.rest.head? = some 'n' then do return (none, ← scanWord "null" c)
  else do
    let (value, c) ← value c
    return (some value, c)

/-- An array of strings. -/
def readStrings (c : Cursor) : Reading (List Text × Cursor) :=
  let c := c.skipBlanks
  if c.rest.head? = some '[' then readArray (readString "a string") c.advance
  else wrongKind "a sequence" c

end Phrasebook.Json
