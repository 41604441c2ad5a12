import Phrasebook.Files.Tree
import Phrasebook.Json.Reader

/-!
# Errors of catalogs

A catalog cannot be made if its text cannot be read, if the text is not JSON, or if the JSON is not
a tree of objects and arrays over strings and numbers. What is wrong with a pattern is never an
error.
-/

namespace Phrasebook.Catalog

/-- Why a catalog cannot be made. -/
inductive Error where
  /-- The file cannot be read. -/
  | unreadable (path : Text) (fault : Files.Fault)
  /-- The text is not JSON. The source is its name, and the description says what is wrong. -/
  | invalidJson (source description : Text)
  /-- The JSON is not an object. -/
  | invalidRoot (kind : Text)
  /-- A leaf is neither a string nor a number. -/
  | unsupportedLeaf (key kind : Text)
  deriving DecidableEq, Repr

namespace Error

/-- The short name of an error. -/
def code : Error → Text
  | unreadable _ _ => "io"
  | invalidJson _ _ => "invalid-json"
  | invalidRoot _ => "invalid-root"
  | unsupportedLeaf _ _ => "unsupported-leaf"

/-- The sentence that describes an error. -/
def message : Error → Text
  | unreadable path fault => "failed to read " ++ path ++ ": " ++ fault.message
  | invalidJson source description => "failed to parse " ++ source ++ ": " ++ description
  | invalidRoot kind => "translation root must be an object, found " ++ kind
  | unsupportedLeaf key kind =>
    "unsupported " ++ kind ++ " at " ++ Text.ticked key ++ "; leaves must be strings or numbers"

/-- What lies behind an error, if it comes from elsewhere. -/
def cause? : Error → Option Text
  | unreadable _ fault => some fault.message
  | invalidJson _ description => some description
  | invalidRoot _ => none
  | unsupportedLeaf _ _ => none

end Error

end Phrasebook.Catalog
