import Phrasebook.Text.Basic

/-!
# Events

What is worth noting while catalogs are compiled and files are written. An event has a level,
a message and named fields.
-/

namespace Phrasebook

/-- What happened. -/
inductive Event where
  /-- A pattern was compiled. -/
  | compiledPattern (key : Text) (names diagnostics : Nat)
  /-- A key occurred again. -/
  | duplicateKey (key : Text)
  /-- A settings file was read. -/
  | loadedSettings (path : Text)
  /-- There is no catalog to compile. -/
  | noCatalogs (directory : Text)
  /-- A language has other keys than the reference language. -/
  | keysDiffer (language reference : Text) (missing extra : Nat)
  /-- A file was written. -/
  | wroteFile (path : Text) (bytes : Nat)
  deriving DecidableEq, Repr

namespace Event

/-- How much attention an event asks for. -/
inductive Level where
  | debug
  | warn
  deriving DecidableEq, Repr

/-- The name of a level. -/
def Level.name : Level → Text
  | debug => "DEBUG"
  | warn => "WARN"

/-- The level of an event. -/
def level : Event → Level
  | compiledPattern _ _ _ => .debug
  | duplicateKey _ => .warn
  | loadedSettings _ => .debug
  | noCatalogs _ => .warn
  | keysDiffer _ _ _ _ => .warn
  | wroteFile _ _ => .debug

/-- The message of an event. -/
def message : Event → Text
  | compiledPattern _ _ _ => "compiled pattern"
  | duplicateKey _ => "duplicate translation key; the later value replaces the earlier one"
  | loadedSettings _ => "loaded configuration"
  | noCatalogs _ => "no translation files found"
  | keysDiffer _ _ _ _ => "translation keys differ"
  | wroteFile _ _ => "wrote file"

/-- The named fields of an event. -/
def fields : Event → List (Text × Text)
  | compiledPattern key names diagnostics =>
    [("key", key), ("variables", Text.decimal names),
      ("diagnostics", Text.decimal diagnostics)]
  | duplicateKey key => [("key", key)]
  | loadedSettings path => [("path", path)]
  | noCatalogs directory => [("dir", directory)]
  | keysDiffer language reference missing extra =>
    [("language", language), ("reference", reference), ("missing", Text.decimal missing),
      ("extra", Text.decimal extra)]
  | wroteFile path bytes => [("path", path), ("bytes", Text.decimal bytes)]

end Event

end Phrasebook
