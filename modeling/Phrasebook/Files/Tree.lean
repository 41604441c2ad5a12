import Phrasebook.Files.Path

/-!
# File trees

A file tree holds files and directories at locations, which are lists of names from the root down.
A workspace is a file tree with a working directory, from which relative paths are followed. Paths
are followed name by name: every name but the last one has to lead to a directory, two dots lead to
the directory above, and a slash at the end asks for a directory. What a run needs to be able to do
with files, whatever they are kept in, is a `Disk`.
-/

namespace Phrasebook.Files

/-- Why an operation on files fails. -/
inductive Fault where
  /-- There is nothing at a path. -/
  | notFound
  /-- There is something where something new is to be made. -/
  | alreadyExists
  /-- There is a file where a directory is due. -/
  | notDirectory
  /-- There is a directory where a file is due. -/
  | isDirectory
  /-- The content of a file is not UTF-8. -/
  | notText
  /-- Any other failure, in the words of the system. -/
  | unknown (description : Text)
  deriving DecidableEq, Repr

/-- The words for a fault. -/
def Fault.message : Fault → Text
  | notFound => "No such file or directory (os error 2)"
  | alreadyExists => "File exists (os error 17)"
  | notDirectory => "Not a directory (os error 20)"
  | isDirectory => "Is a directory (os error 21)"
  | notText => "stream did not contain valid UTF-8"
  | unknown description => description

/-- The names from the root down to a file or a directory. Names are texts: there are no files here
with names that are no UTF-8. -/
abbrev Location := List Text

/-- The content of a file: a text, or bytes that are no UTF-8. -/
inductive Content where
  | text (value : Text)
  | bytes (value : List UInt8)
  deriving DecidableEq, Repr

/-- The content of bytes. -/
def Content.ofBytes (bytes : ByteArray) : Content :=
  match String.fromUTF8? bytes with
  | some value => .text value.toList
  | none => .bytes bytes.toList

/-- What stands at a location. -/
inductive Object where
  | file (content : Content)
  | directory
  deriving DecidableEq, Repr

/-- Files and directories at locations. The root is a directory without being listed. -/
structure Tree where
  objects : List (Location × Object) := []
  deriving DecidableEq, Repr

namespace Tree

/-- What stands at a location. -/
def get? (tree : Tree) (location : Location) : Option Object :=
  if location = [] then some .directory else tree.objects.lookup location

/-- Objects with another one at a location, in the place of the one that stands there. -/
def putObject (location : Location) (object : Object) :
    List (Location × Object) → List (Location × Object)
  | [] => [(location, object)]
  | (place, old) :: rest =>
    if place = location then (place, object) :: rest
    else (place, old) :: putObject location object rest

/-- The tree with an object at a location. -/
def put (tree : Tree) (location : Location) (object : Object) : Tree :=
  ⟨putObject location object tree.objects⟩

/-- The tree without what stands at a location or below it. -/
def erase (tree : Tree) (location : Location) : Tree :=
  ⟨tree.objects.filter fun (place, _) => !location.isPrefixOf place⟩

/-- What a tree holds below a location that another one does not hold, by the way from there. -/
def changes (tree before : Tree) (location : Location) : List (Location × Object) :=
  tree.objects.filterMap fun (place, object) =>
    if location.isPrefixOf place ∧ before.get? place ≠ some object then
      some (place.drop location.length, object)
    else none

/-- The names of the files that stand right below a location. -/
def fileNames (tree : Tree) (location : Location) : List Text :=
  tree.objects.filterMap fun (place, object) =>
    match object with
    | .file _ => if place.dropLast = location then place.getLast? else none
    | .directory => none

/-- One step from a location along a field of a path. Only a directory leads on. -/
def step (tree : Tree) (location : Location) (field : Text) : Except Fault Location :=
  match tree.get? location with
  | none => .error .notFound
  | some (.file _) => .error .notDirectory
  | some .directory =>
    if field.isEmpty || field = "." then .ok location
    else if field = ".." then .ok location.dropLast
    else if (tree.get? (location ++ [field])).isSome then .ok (location ++ [field])
    else .error .notFound

/-- The location that fields lead to from a location. -/
def follow (tree : Tree) (location : Location) : List Text → Except Fault Location
  | [] => .ok location
  | field :: rest =>
    match tree.step location field with
    | .error fault => .error fault
    | .ok next => tree.follow next rest

end Tree

/-- A file tree with a working directory. -/
structure Workspace where
  tree : Tree
  directory : Location
  deriving DecidableEq, Repr

namespace Workspace

/-- Where a path starts. -/
def base (w : Workspace) (path : Text) : Location :=
  if Path.isAbsolute path then [] else w.directory

/-- The location that a path leads to. -/
def resolve (w : Workspace) (path : Text) : Except Fault Location :=
  if path.isEmpty then .error .notFound
  else w.tree.follow (w.base path) (Text.fields '/' path)

/-- What stands at a path. -/
def object (w : Workspace) (path : Text) : Except Fault Object :=
  match w.resolve path with
  | .error fault => .error fault
  | .ok location =>
    match w.tree.get? location with
    | none => .error .notFound
    | some object => .ok object

/-- Whether a path leads to a file. -/
def isFile (w : Workspace) (path : Text) : Bool :=
  match w.object path with
  | .ok (.file _) => true
  | _ => false

/-- Whether a path leads to a directory. -/
def isDirectory (w : Workspace) (path : Text) : Bool :=
  match w.object path with
  | .ok .directory => true
  | _ => false

/-- The text of the file at a path. -/
def read (w : Workspace) (path : Text) : Except Fault Text :=
  match w.object path with
  | .error fault => .error fault
  | .ok .directory => .error .isDirectory
  | .ok (.file (.bytes _)) => .error .notText
  | .ok (.file (.text value)) => .ok value

/-- The paths of the files at a path: of itself if it leads to a file, and of the files right below
it if it leads to a directory. -/
def regularFiles (w : Workspace) (path : Text) : Except Fault (List Text) :=
  match w.resolve path with
  | .error fault => .error fault
  | .ok location =>
    match w.tree.get? location with
    | none => .error .notFound
    | some (.file _) => .ok [path]
    | some .directory => .ok ((w.tree.fileNames location).map (Path.join path))

/-- Where the last field of a path belongs. -/
inductive Target where
  /-- Under a name in a directory; a slash may follow. -/
  | entry (location : Location) (slash : Bool)
  /-- At a directory that is there already. -/
  | existing

/-- Where the last field of a path belongs, if what is in front of it leads to a directory. -/
def target (w : Workspace) (path : Text) : Except Fault Target :=
  if path.isEmpty then .error .notFound
  else
    let fields := (Text.fields '/' path).reverse
    let slash := fields.head? = some []
    match fields.dropWhile List.isEmpty with
    | [] => .ok .existing
    | last :: before =>
      match w.tree.follow (w.base path) before.reverse with
      | .error fault => .error fault
      | .ok location =>
        match w.tree.get? location with
        | none => .error .notFound
        | some (.file _) => .error .notDirectory
        | some .directory =>
          if last = "." ∨ last = ".." then .ok .existing
          else .ok (.entry (location ++ [last]) slash)

/-- The workspace with an object at a location. -/
def put (w : Workspace) (location : Location) (object : Object) : Workspace :=
  { w with tree := w.tree.put location object }

/-- Makes a directory, in a directory that is there. -/
def makeDirectory (w : Workspace) (path : Text) : Except Fault Workspace :=
  match w.target path with
  | .error fault => .error fault
  | .ok .existing => .error .alreadyExists
  | .ok (.entry location _) =>
    if (w.tree.get? location).isSome then .error .alreadyExists
    else .ok (w.put location .directory)

/-- Makes the first of some paths a directory, given the paths above it, unless it is one already.
Directories that are made before a failure stay. -/
def makeAll (w : Workspace) : List Text → Workspace × Except Fault Unit
  | [] => (w, .ok ())
  | path :: above =>
    match w.makeDirectory path with
    | .ok made => (made, .ok ())
    | .error .notFound =>
      match w.makeAll above with
      | (made, .error fault) => (made, .error fault)
      | (made, .ok ()) =>
        match made.makeDirectory path with
        | .ok made => (made, .ok ())
        | .error fault =>
          (made, if fault = .alreadyExists ∧ made.isDirectory path then .ok () else .error fault)
    | .error fault =>
      (w, if fault = .alreadyExists ∧ w.isDirectory path then .ok () else .error fault)

/-- Makes a path a directory, with the directories above it, unless it is one already. -/
def makeDirectories (w : Workspace) (path : Text) : Workspace × Except Fault Unit :=
  w.makeAll (Path.ancestors path)

/-- Writes a text to a file, which is made in a directory that is there if it is not there yet. -/
def write (w : Workspace) (path content : Text) : Except Fault Workspace :=
  match w.target path with
  | .error fault => .error fault
  | .ok .existing => .error .isDirectory
  | .ok (.entry location slash) =>
    if slash then .error .isDirectory
    else
      match w.tree.get? location with
      | some .directory => .error .isDirectory
      | _ => .ok (w.put location (.file (.text content)))

/-- Puts content into a file, with the directories above it. -/
def store (w : Workspace) (path : Text) (content : Content) : Workspace :=
  let (w, _) := w.makeAll (Path.ancestors path).tail
  match w.target path with
  | .ok (.entry location false) => w.put location (.file content)
  | _ => w

/-- Takes away what stands at a path. -/
def remove (w : Workspace) (path : Text) : Workspace :=
  match w.resolve path with
  | .ok location => { w with tree := w.tree.erase location }
  | .error _ => w

/-- What was made or changed below the working directory since an earlier time. -/
def changes (w before : Workspace) : List (Location × Object) :=
  w.tree.changes before.tree w.directory

end Workspace

/-- Operations on files, with effects in `m`. -/
structure Disk (m : Type → Type) where
  /-- Whether a path leads to a file. -/
  isFile : Text → m Bool
  /-- The text of the file at a path. -/
  read : Text → m (Except Fault Text)
  /-- The paths of the file at a path or of the files right below it. -/
  regularFiles : Text → m (Except Fault (List Text))
  /-- Makes a directory, with the directories above it. -/
  makeDirectories : Text → m (Except Fault Unit)
  /-- Writes a text to a file. -/
  write : Text → Text → m (Except Fault Unit)

/-- The operations on the file tree of a workspace. -/
def Disk.workspace : Disk (StateM Workspace) where
  isFile path := fun w => (w.isFile path, w)
  read path := fun w => (w.read path, w)
  regularFiles path := fun w => (w.regularFiles path, w)
  makeDirectories path := fun w =>
    let (made, result) := w.makeDirectories path
    (result, made)
  write path content := fun w =>
    match w.write path content with
    | .ok written => (.ok (), written)
    | .error fault => (.error fault, w)

end Phrasebook.Files
