import Phrasebook.Text.Basic

/-!
# Options of the command

The options that the command takes, how they are spelled, and what they set.
-/

namespace Phrasebook.Command

/-- How reports are written. -/
inductive Format where
  /-- For people. -/
  | human
  /-- One JSON object on each line. -/
  | json
  /-- Fields between colons. -/
  | machine
  deriving DecidableEq, Repr

/-- The name of a format. -/
def Format.name : Format → Text
  | human => "human"
  | json => "json"
  | machine => "machine"

/-- The format of a name. -/
def Format.ofName? (name : Text) : Option Format :=
  [human, json, machine].find? fun format => format.name = name

/-- The options without a value. -/
inductive Switch where
  | noProvider
  | check
  | strict
  | watch
  | preserveWatchOutput
  | timings
  | verbose
  deriving DecidableEq, Repr

/-- The options with a value. -/
inductive Setting where
  | dir
  | lang
  | outDir
  | config
  | importRoot
  | output
  deriving DecidableEq, Repr

/-- An option. -/
inductive Flag where
  | switch (s : Switch)
  | setting (s : Setting)
  | help
  | version
  deriving DecidableEq, Repr

/-- The options by their long names. -/
def longNames : List (Text × Flag) :=
  [("dir", .setting .dir), ("lang", .setting .lang), ("out-dir", .setting .outDir),
    ("config", .setting .config), ("import-prefix", .setting .importRoot),
    ("no-provider", .switch .noProvider), ("check", .switch .check), ("strict", .switch .strict),
    ("output", .setting .output), ("watch", .switch .watch),
    ("preserve-watch-output", .switch .preserveWatchOutput), ("timings", .switch .timings),
    ("verbose", .switch .verbose), ("help", .help), ("version", .version)]

/-- The options by their short names. -/
def shortNames : List (Char × Flag) :=
  [('d', .setting .dir), ('l', .setting .lang), ('o', .setting .outDir), ('c', .setting .config),
    ('w', .switch .watch), ('v', .switch .verbose), ('h', .help), ('V', .version)]

/-- What the options of a command line amount to. -/
structure Options where
  /-- The directory of the catalogs. -/
  dir : Text := "."
  /-- The languages to compile, in order. -/
  langs : List Text := []
  /-- The directory of the generated modules. -/
  outDir : Option Text := none
  /-- The settings file. -/
  config : Option Text := none
  /-- Where the provider imports the modules of the languages from. -/
  importRoot : Option Text := none
  noProvider : Bool := false
  check : Bool := false
  strict : Bool := false
  output : Format := .human
  watch : Bool := false
  preserveWatchOutput : Bool := false
  timings : Bool := false
  verbose : Bool := false
  deriving DecidableEq, Repr

/-- The least level of events that are shown. -/
def Options.logFilter (options : Options) : Text :=
  if options.verbose then "debug" else "info"

end Phrasebook.Command
