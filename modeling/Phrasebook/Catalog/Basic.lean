import Phrasebook.Catalog.Flatten

/-!
# Catalogs

A catalog holds the compiled patterns of one language.
-/

namespace Phrasebook

/-- The compiled patterns of a language. -/
structure Catalog where
  language : Text
  store : Catalog.Store

namespace Catalog

/-- The events of making a catalog, and the catalog unless that failed. -/
structure Loading where
  log : List Event
  result : Except Error Catalog

/-- Makes the catalog of a JSON text, which errors call by the name of its source. -/
def load (language source text : Text) : Loading :=
  match Json.read text with
  | .error located =>
    ⟨[], .error (.invalidJson source (Json.locate text located.offset located.cause.message))⟩
  | .ok tree =>
    let flattening := flatten tree
    ⟨flattening.log, flattening.result.map (⟨language, ·⟩)⟩

/-- What errors call a text that is given for a language. -/
def sourceName (language : Text) : Text := Text.ticked language ++ " translations"

/-- The keys of a catalog, in order. -/
def keys (catalog : Catalog) : List Text := catalog.store.keys

/-- What is said about the patterns of a catalog, each with its entry. -/
def diagnostics (catalog : Catalog) : List (Entry × Pattern.Diagnostic) :=
  catalog.store.entries.flatMap fun entry => entry.compiled.diagnostics.map (entry, ·)

/-- The keys that one of two catalogs has and the other one lacks. -/
structure KeyDifference where
  /-- The keys that the other catalog has and this one lacks. -/
  missing : List Text
  /-- The keys that this catalog has and the other one lacks. -/
  extra : List Text
  deriving DecidableEq, Repr

/-- Whether two catalogs have the same keys. -/
def KeyDifference.isEmpty (d : KeyDifference) : Bool := d.missing.isEmpty && d.extra.isEmpty

/-- The number of keys that only one of two catalogs has. -/
def KeyDifference.size (d : KeyDifference) : Nat := d.missing.length + d.extra.length

/-- The difference of the keys of a catalog from those of another one. -/
def keyDifference (catalog reference : Catalog) : KeyDifference where
  missing := reference.keys.filter fun key => key ∉ catalog.keys
  extra := catalog.keys.filter fun key => key ∉ reference.keys

end Catalog

end Phrasebook
