import Phrasebook.Catalog.Store
import Phrasebook.Layout

/-!
# Modules of languages

The patterns of a language are written as a TypeScript module. It exports a union of tuple types,
one for each key with what has to be passed along with it, and a function that switches on the key
and evaluates the template of its pattern. A key that is not known gives a text that says so.
-/

namespace Phrasebook.Catalog

open Layout

/-- The first line of every generated file. -/
def generatedNotice : Text := "// Generated by icu-ts. Do not edit."

/-- The tuple type of an entry. -/
def Entry.shape (entry : Entry) : Text :=
  match entry.compiled.parameters.typescript? with
  | some record => "[k: " ++ Text.quote entry.key ++ ", " ++ record ++ "]"
  | none => "[k: " ++ Text.quote entry.key ++ "]"

/-- The arm of the switch for an entry. -/
def Entry.arm (entry : Entry) : Layout :=
  let label := "case " ++ Text.quote entry.key ++ ":"
  if entry.compiled.parameters.isRecord then
    .line (label ++ " \x7b") ::
      nested [.line "const v = p[1]", .line ("return " ++ entry.compiled.code)] ++ [.line "\x7d"]
  else [.line (label ++ " return " ++ entry.compiled.code)]

namespace Store

/-- The union of the tuple types of all entries. -/
def shapes (store : Store) : Layout :=
  if store.entries.isEmpty then [.line "export type Props = never"]
  else
    .line "export type Props =" ::
      nested (store.entries.map fun entry => .line ("| " ++ entry.shape))

/-- The function that evaluates the pattern of a key. -/
def switch (store : Store) : Layout :=
  .line "export const translate = (...p: Props): string => \x7b" ::
    nested
      (.line "switch (p[0]) \x7b" ::
        nested
          (store.entries.flatMap Entry.arm ++
            [.line "default: return `MISSING $\x7bp[0]\x7d`"]) ++
        [.line "\x7d"]) ++
    [.line "\x7d"]

/-- The module of a store. -/
def moduleText (store : Store) : Text :=
  Layout.render <|
    [.line generatedNotice, .newline] ++ store.shapes ++ [.newline] ++ store.switch

end Store

end Phrasebook.Catalog
