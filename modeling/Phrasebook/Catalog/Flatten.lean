import Phrasebook.Catalog.Error
import Phrasebook.Catalog.Store
import Phrasebook.Event

/-!
# Flattening

A tree of objects and arrays is flattened to a store: the keys of objects and the positions in
arrays on the way to a leaf are joined with dots, and the leaf is compiled under that key. Strings
are patterns, and numbers are compiled from their texts. Flattening stops at the first leaf of
another kind.
-/

namespace Phrasebook.Catalog

/-- The events of a flattening, and its store unless it failed. -/
structure Flattening where
  log : List Event
  result : Except Error Store

namespace Flattening

/-- A flattening that goes on from the store of another one, unless that has failed. -/
def andThen (first : Flattening) (next : Store → Flattening) : Flattening :=
  match first.result with
  | .error _ => first
  | .ok store =>
    let second := next store
    ⟨first.log ++ second.log, second.result⟩

/-- A store as it is. -/
def done (store : Store) : Flattening := ⟨[], .ok store⟩

/-- A store with a pattern compiled under a key. -/
def leaf (key pattern : Text) (store : Store) : Flattening :=
  let entry := Entry.compile key pattern
  let compiled := Event.compiledPattern key entry.compiled.names.length
    entry.compiled.diagnostics.length
  ⟨compiled :: if key ∈ store.keys then [.duplicateKey key] else [], .ok (store.insert entry)⟩

/-- A leaf that cannot be compiled. -/
def refused (key : Text) (value : Json) : Flattening :=
  ⟨[], .error (.unsupportedLeaf key value.kind)⟩

end Flattening

mutual
/-- Flattens the value under a key into a store. -/
def flattenValue (key : Text) : Json → Store → Flattening
  | .null, _ => .refused key .null
  | .bool value, _ => .refused key (.bool value)
  | .number value, store => .leaf key value.text store
  | .string value, store => .leaf key value store
  | .array items, store => flattenItems key 0 items store
  | .object members, store => flattenMembers (key ++ ['.']) members store

/-- Flattens the items of an array under a key, from a position on. -/
def flattenItems (key : Text) (position : Nat) : List Json → Store → Flattening
  | [], store => .done store
  | item :: rest, store =>
    (flattenValue (key ++ '.' :: Text.decimal position) item store).andThen
      (flattenItems key (position + 1) rest)

/-- Flattens the members of an object, with `stem` in front of their keys. -/
def flattenMembers (stem : Text) : List (Text × Json) → Store → Flattening
  | [], store => .done store
  | (key, value) :: rest, store =>
    (flattenValue (stem ++ key) value store).andThen (flattenMembers stem rest)
end

/-- Flattens a tree, whose root is an object. -/
def flatten : Json → Flattening
  | .object members => flattenMembers [] members .empty
  | root => ⟨[], .error (.invalidRoot root.kind)⟩

end Phrasebook.Catalog
