import Phrasebook.Number.Basic
import Phrasebook.Text.Basic

/-!
# JSON values

JSON values with the members of objects in the order of their keys' first occurrences, and their
compact text.
-/

namespace Phrasebook

/-- A JSON value. -/
inductive Json where
  | null
  | bool (value : Bool)
  | number (value : Number)
  | string (value : Text)
  | array (items : List Json)
  | object (members : List (Text × Json))

namespace Json

/-- The number of a count. -/
def count (n : Nat) : Json := number (.integer n)

/-- What kind of value this is, in words. -/
def kind : Json → Text
  | null => "null"
  | bool _ => "boolean"
  | number _ => "number"
  | string _ => "string"
  | array _ => "array"
  | object _ => "object"

/-- The members with one more. A key that is there already keeps its place and takes the new
value. -/
def insertMember (key : Text) (value : Json) : List (Text × Json) → List (Text × Json)
  | [] => [(key, value)]
  | (k, v) :: rest =>
    if k = key then (k, value) :: rest else (k, v) :: insertMember key value rest

mutual
/-- The text of a value, without blanks. -/
def render : Json → Text
  | null => "null"
  | bool true => "true"
  | bool false => "false"
  | number value => value.text
  | string value => Text.quote value
  | array [] => "[]"
  | array (item :: rest) => '[' :: render item ++ renderItems rest ++ "]"
  | object [] => "\x7b\x7d"
  | object (member :: rest) => '{' :: renderMember member ++ renderMembers rest ++ "\x7d"

/-- The text of the items of an array after the first one. -/
def renderItems : List Json → Text
  | [] => []
  | item :: rest => ',' :: render item ++ renderItems rest

/-- The text of a member of an object. -/
def renderMember : Text × Json → Text
  | (key, value) => Text.quote key ++ ':' :: render value

/-- The text of the members of an object after the first one. -/
def renderMembers : List (Text × Json) → Text
  | [] => []
  | member :: rest => ',' :: renderMember member ++ renderMembers rest
end

end Json

end Phrasebook
