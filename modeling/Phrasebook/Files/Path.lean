import Phrasebook.Text.Basic

/-!
# Paths

A path is a text of names between slashes. How a path is spelled shows in messages, so joining
keeps the spelling of both sides, while comparing and taking apart look at the components: doubled
slashes, slashes at the end and single dots after the first place do not count.
-/

namespace Phrasebook.Files.Path

/-- Whether a path starts at the root. -/
def isAbsolute (path : Text) : Bool := path.head? == some '/'

/-- A path below another one. An absolute path stands for itself. -/
def join (base path : Text) : Text :=
  if isAbsolute path then path
  else if base.isEmpty || base.getLast? == some '/' then base ++ path
  else base ++ '/' :: path

/-- A part of a path. -/
inductive Component where
  /-- The root that an absolute path starts at. -/
  | root
  /-- A single dot that a path starts with. -/
  | here
  /-- A double dot. -/
  | up
  /-- A name. -/
  | name (text : Text)
  deriving DecidableEq, Repr

/-- The component of a field between slashes, if it counts as one. -/
def component? (field : Text) : Option Component :=
  if field.isEmpty || field = "." then none
  else if field = ".." then some .up
  else some (.name field)

/-- The components of a path. -/
def components (path : Text) : List Component :=
  let fields := Text.fields '/' path
  let inner := fields.filterMap component?
  if isAbsolute path then .root :: inner
  else if fields.head? = some "." then .here :: inner
  else inner

/-- Whether two paths have the same components. -/
def same (a b : Text) : Bool := components a = components b

/-- The last name of a path, if it ends with a name. -/
def fileName? (path : Text) : Option Text :=
  match (components path).getLast? with
  | some (.name text) => some text
  | _ => none

/-- A name in front of its last dot and behind it. A dot in the first place does not count. -/
def splitExtension (name : Text) : Text × Option Text :=
  match Text.splitLast '.' name with
  | some (stem, extension) => if stem.isEmpty then (name, none) else (stem, some extension)
  | none => (name, none)

/-- The last name of a path without its extension. -/
def stem? (path : Text) : Option Text := (fileName? path).map fun name => (splitExtension name).1

/-- The extension of the last name of a path. -/
def extension? (path : Text) : Option Text :=
  (fileName? path).bind fun name => (splitExtension name).2

/-- The field that spells a component. -/
def Component.field : Component → Text
  | root => []
  | here => "."
  | up => ".."
  | name text => text

/-- The plain spelling of components. -/
def ofComponents (components : List Component) : Text :=
  if components = [.root] then "/" else Text.joinWith "/" (components.map Component.field)

/-- A path and the paths above it, from the nearest one on, without the root and the empty
path. -/
def ancestors (path : Text) : List Text :=
  let parts := components path
  if parts = [] ∨ parts = [.root] then []
  else
    let shorter := (List.range parts.length).reverse.map parts.take
    path :: (shorter.filter fun above => above ≠ [] ∧ above ≠ [.root]).map ofComponents

end Phrasebook.Files.Path
