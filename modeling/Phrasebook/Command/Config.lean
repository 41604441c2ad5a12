import Phrasebook.Command.Options
import Phrasebook.Command.Settings
import Phrasebook.Files.Tree
import Phrasebook.Provider

/-!
# Configurations

A configuration says what a run compiles and where it writes. It comes from the options, then from
the settings file, then from the catalogs that are found, in that order of precedence.
-/

namespace Phrasebook.Command

open Files

/-- Why a run fails: a message, and what lies behind it. -/
abbrev Report := List Text

/-- What a run compiles and where it writes. -/
structure Config where
  /-- The directory of the catalogs. -/
  dir : Text
  /-- The directory of the generated modules. -/
  outDir : Text
  /-- The languages to compile, in order. -/
  languages : List Text
  /-- Where the provider imports the modules of the languages from. -/
  importRoot : Text
  /-- The name of the provider's file, unless there is no provider. -/
  providerFile : Option Text
  /-- The settings file that was read. -/
  settingsPath : Option Text
  deriving DecidableEq, Repr

namespace Config

/-- The name of the settings file that is read if none is named. -/
def settingsFile : Text := "icu-ts.json"

/-- The catalog of a language. -/
def inputPath (config : Config) (language : Text) : Text :=
  Path.join config.dir (Provider.fileStem language ++ ".json")

/-- The module of a language. -/
def outputPath (config : Config) (language : Text) : Text :=
  Path.join config.outDir (Provider.fileStem language ++ ".ts")

/-- The provider module. -/
def providerPath (config : Config) : Option Text :=
  config.providerFile.map (Path.join config.outDir)

/-- Whether a path is one whose changes matter. -/
def isWatched (path : Text) : Bool := Path.extension? path = some "json"

/-- The language of a file, if it is a catalog and not the settings file. -/
def languageOf? (settingsPath : Option Text) (path : Text) : Option Text :=
  if Path.extension? path ≠ some "json" then none
  else if Path.fileName? path = some settingsFile then none
  else if settingsPath.any (Path.same · path) then none
  else Path.stem? path

/-- The languages of files, in the order of their names. -/
def discover (settingsPath : Option Text) (files : List Text) : List Text :=
  (files.filterMap (languageOf? settingsPath)).mergeSort Text.notAfter

/-- The configuration of options and settings, for given languages. -/
def ofSettings (options : Options) (settingsPath : Option Text) (settings : Settings)
    (languages : List Text) : Config where
  dir := options.dir
  outDir := (options.outDir.or (settings.outDir.map (Path.join options.dir))).getD options.dir
  languages := languages
  importRoot := (options.importRoot.or settings.importRoot).getD Provider.defaultImportRoot
  providerFile :=
    if options.noProvider || settings.provider = some false then none
    else some (settings.providerFile.getD Provider.defaultFile)
  settingsPath := settingsPath

variable {m : Type → Type} [Monad m]

/-- The settings file that applies: the one that is named, else the usual one if it is there. -/
def findSettings (disk : Disk m) (options : Options) : m (Option Text) :=
  match options.config with
  | some path => return some path
  | none => do
    let path := Path.join options.dir settingsFile
    return if ← disk.isFile path then some path else none

/-- The settings of a file; without a file there are none. -/
def loadSettings (disk : Disk m) : Option Text → m (Except Report Settings)
  | none => return .ok {}
  | some path => do
    match ← disk.read path with
    | .error fault => return .error ["Failed to read " ++ path, fault.message]
    | .ok text =>
      match Settings.read text with
      | .error description => return .error ["Invalid configuration in " ++ path, description]
      | .ok settings => return .ok settings

/-- The languages to compile: those of the options, else those of the settings, else all that are
found. -/
def findLanguages (disk : Disk m) (options : Options) (settingsPath : Option Text)
    (settings : Settings) : m (Except Report (List Text)) :=
  if !options.langs.isEmpty then return .ok options.langs
  else if !settings.languages.isEmpty then return .ok settings.languages
  else do
    match ← disk.regularFiles options.dir with
    | .error fault =>
      return .error ["Failed to list " ++ options.dir,
        "IO error for operation on " ++ options.dir ++ ": " ++ fault.message, fault.message]
    | .ok files => return .ok (discover settingsPath files)

/-- The configuration of options. -/
def load (disk : Disk m) (options : Options) : m (Except Report Config) := do
  let settingsPath ← findSettings disk options
  match ← loadSettings disk settingsPath with
  | .error report => return .error report
  | .ok settings =>
    match ← findLanguages disk options settingsPath settings with
    | .error report => return .error report
    | .ok languages => return .ok (ofSettings options settingsPath settings languages)

end Config

end Phrasebook.Command
