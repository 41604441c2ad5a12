import Phrasebook.Json.Reader

/-!
# Settings files

A settings file is a JSON object with up to five members, each of which may be left out, or an
array of the same five values in order.
-/

namespace Phrasebook.Command

open Json

/-- What a settings file says. -/
structure Settings where
  /-- The languages to compile, in order. -/
  languages : List Text := []
  /-- The directory of the generated modules, from the directory of the catalogs. -/
  outDir : Option Text := none
  /-- Where the provider imports the modules of the languages from. -/
  importRoot : Option Text := none
  /-- Whether a provider is generated. -/
  provider : Option Bool := none
  /-- The name of the provider's file. -/
  providerFile : Option Text := none
  deriving DecidableEq, Repr

namespace Settings

/-- The members of a settings file. -/
inductive Field where
  | languages
  | outDir
  | importRoot
  | provider
  | providerFile
  deriving DecidableEq, Repr

/-- The key of a member. -/
def Field.name : Field → Text
  | languages => "languages"
  | outDir => "outDir"
  | importRoot => "importPrefix"
  | provider => "provider"
  | providerFile => "providerFile"

/-- All members, in the order of the array form. -/
def Field.all : List Field := [languages, outDir, importRoot, provider, providerFile]

/-- The member with a key. -/
def Field.ofName? (name : Text) : Option Field := Field.all.find? fun field => field.name = name

/-- What messages call the whole. -/
def description : Text := "struct FileConfig"

/-- The settings with the value of a member at a cursor. -/
def readField (settings : Settings) (field : Field) (c : Cursor) : Reading (Settings × Cursor) :=
  match field with
  | .languages => do
    let (languages, c) ← readStrings c
    return ({ settings with languages }, c)
  | .outDir => do
    let (outDir, c) ← readOptional (readString "path string") c
    return ({ settings with outDir }, c)
  | .importRoot => do
    let (importRoot, c) ← readOptional (readString "a string") c
    return ({ settings with importRoot }, c)
  | .provider => do
    let (provider, c) ← readOptional readBool c
    return ({ settings with provider }, c)
  | .providerFile => do
    let (providerFile, c) ← readOptional (readString "a string") c
    return ({ settings with providerFile }, c)

/-- A fault of a key, behind which the blanks and a closing brace are passed over. -/
def keyFault {α : Type} (cause : Fault) (c : Cursor) : Reading α :=
  let c := c.skipBlanks
  fault cause (if c.rest.head? = some '}' then c.offset + 1 else c.offset)

/-- The settings and the members so far, with one more, which is read from behind its key. -/
def readMember (state : Settings × List Field) (key : Text) (c : Cursor) :
    Reading ((Settings × List Field) × Cursor) :=
  let (settings, seen) := state
  match Field.ofName? key with
  | none => keyFault (.unknownField key (Field.all.map Field.name)) c
  | some field =>
    if field ∈ seen then keyFault (.duplicateField key) c
    else do
      let c ← skipColon c
      let (settings, c) ← readField settings field c
      return ((settings, field :: seen), c)

/-- The end of the array form after its last value. -/
def readEnd (settings : Settings) (c : Cursor) : Reading (Settings × Cursor) :=
  let c := c.skipBlanks
  match c.rest with
  | [] => c.peekFault .endInArray
  | x :: _ =>
    if x = ']' then .ok (settings, c.advance)
    else if x = ',' then
      let c := c.advance.skipBlanks
      if c.rest.head? = some ']' then c.peekFault .trailingComma
      else c.peekFault .trailingCharacters
    else c.peekFault .trailingCharacters

/-- The values of the array form from a position on. Only the first one may be missing, which shows
only if there are no others. -/
def readPositions (settings : Settings) (position : Nat) :
    List Field → Cursor → Reading (Settings × Cursor)
  | [], c => readEnd settings c
  | field :: rest, c => do
    match ← nextItem (position == 0) c with
    | .done c => fault (.tooShort (max position 1) (description ++ " with 5 elements")) c.offset
    | .more c =>
      let (settings, c) ← readField settings field c
      readPositions settings (position + 1) rest c

/-- The settings at a cursor. -/
def readAt (c : Cursor) : Reading (Settings × Cursor) :=
  let c := c.skipBlanks
  if c.rest.head? = some '{' then do
    let ((settings, _), c) ← readObject readMember ({}, []) c.advance
    return (settings, c)
  else if c.rest.head? = some '[' then readPositions {} 0 Field.all c.advance
  else wrongKind description c

/-- The settings of a text, or what is wrong with it. -/
def read (text : Text) : Except Text Settings :=
  let result : Reading Settings := do
    let (settings, c) ← readAt ⟨text, 0⟩
    finish settings c
  match result with
  | .ok settings => .ok settings
  | .error located => .error (locate text located.offset located.cause.message)

end Settings

end Phrasebook.Command
