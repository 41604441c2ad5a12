import Phrasebook.Pattern.Parse
import Phrasebook.Text.Basic

/-!
# Templates

A pattern is compiled to a TypeScript template literal over a record `v` of strings. Texts stand
for themselves, placeholders read a property of the record, and selects become chains of
conditions.
-/

namespace Phrasebook

open Pattern

namespace Template

/-- Whether a character can start an identifier. -/
def isIdentifierStart (c : Char) : Bool := c.isAlpha || c == '_' || c == '$'

/-- Whether a character can occur in an identifier after the first place. -/
def isIdentifierPart (c : Char) : Bool := c.isAlphanum || c == '_' || c == '$'

/-- Whether a name can be written as a property without quotes. -/
def isIdentifier : Text → Bool
  | [] => false
  | c :: rest => isIdentifierStart c && rest.all isIdentifierPart

/-- A name as a property of a record type, quoted where it is not an identifier. -/
def property (name : Text) : Text :=
  if isIdentifier name then name else Text.quote name

/-- How code reads a property of the record: directly, or only if there is a record. -/
inductive Access where
  | direct
  | optional
  deriving DecidableEq, Repr

/-- The expression that reads a property of the record `v`. -/
def access (how : Access) (name : Text) : Text :=
  if isIdentifier name then
    match how with
    | .direct => "v." ++ name
    | .optional => "v?." ++ name
  else
    match how with
    | .direct => "v[" ++ Text.quote name ++ "]"
    | .optional => "v?.[" ++ Text.quote name ++ "]"

/-! ### Code -/

mutual
/-- The code of a node inside a template literal. -/
def nodeCode : Node → Text
  | .text value _ => value
  | .placeholder name _ => "$\x7b" ++ access .optional name ++ "??\"\"\x7d"
  | .select name cases fallback _ =>
    "$\x7b(" ++ casesCode (access .direct name) cases ++ Text.ticked (bodyCode fallback) ++
      ")\x7d"

/-- The code of nodes inside a template literal. -/
def bodyCode : List Node → Text
  | [] => []
  | node :: rest => nodeCode node ++ bodyCode rest

/-- The conditions of cases, each with the template literal of its body. The first case that
matches wins. -/
def casesCode (subject : Text) : List Case → Text
  | [] => []
  | ⟨label, body, _⟩ :: rest =>
    subject ++ "===" ++ Text.ticked label ++ "?" ++ Text.ticked (bodyCode body) ++ ":" ++
      casesCode subject rest
end

/-- The template literal of a list of nodes. -/
def code (nodes : List Node) : Text := Text.ticked (bodyCode nodes)

/-! ### Variables -/

/-- Names with another one at the end, unless it is there already. -/
def addName (names : List Text) (name : Text) : List Text :=
  if name ∈ names then names else names ++ [name]

mutual
/-- Names with those that a node reads added. -/
def addNodeNames : Node → List Text → List Text
  | .text _ _, names => names
  | .placeholder name _, names => addName names name
  | .select name cases fallback _, names =>
    addBodyNames fallback (addCaseNames cases (addName names name))

/-- Names with those that nodes read added. -/
def addBodyNames : List Node → List Text → List Text
  | [], names => names
  | node :: rest, names => addBodyNames rest (addNodeNames node names)

/-- Names with those that the bodies of cases read added. -/
def addCaseNames : List Case → List Text → List Text
  | [], names => names
  | ⟨_, body, _⟩ :: rest, names => addCaseNames rest (addBodyNames body names)
end

/-- The variables that nodes read, in the order of their first occurrences. -/
def names (nodes : List Node) : List Text := addBodyNames nodes []

end Template

/-! ### Parameters -/

/-- What a caller has to pass along with a key. -/
inductive Parameters where
  /-- Nothing. -/
  | none
  /-- A record with a string under each name. -/
  | record (names : List Text)
  deriving DecidableEq, Repr

namespace Parameters

/-- The parameters of code that reads the given variables. -/
def ofVariables : List Text → Parameters
  | [] => none
  | name :: names => record (name :: names)

/-- The names of the record. -/
def names : Parameters → List Text
  | none => []
  | record names => names

/-- Whether there is a record to pass. -/
def isRecord : Parameters → Bool
  | none => false
  | record _ => true

/-- The element of a tuple type that describes the record. -/
def typescript? : Parameters → Option Text
  | none => Option.none
  | record names =>
    let members := names.map fun name => Template.property name ++ ": string"
    some ("v:\x7b" ++ Text.joinWith "; " members ++ "\x7d")

end Parameters

namespace Template

/-- A compiled pattern. -/
structure Compiled where
  /-- The template literal. -/
  code : Text
  /-- The variables that it reads, in the order of their first occurrences. -/
  names : List Text
  /-- What was said about the pattern. -/
  diagnostics : List Diagnostic

/-- What a caller of a compiled pattern has to pass. -/
def Compiled.parameters (c : Compiled) : Parameters := .ofVariables c.names

/-- Reads a pattern and compiles it. -/
def compile (pattern : Text) : Compiled :=
  let parsed := parse pattern
  ⟨code parsed.nodes, names parsed.nodes, parsed.diagnostics⟩

end Template

end Phrasebook
