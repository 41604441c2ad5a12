import Phrasebook.Command.Options

/-!
# Reading arguments

Arguments are read from left to right, and the first error counts. An option whose value is not
attached to it waits for the next argument, unless that starts with a dash. It is closed, and its
value is checked, when the next option comes or the arguments end. What is not an option at all is
refused at once.
-/

namespace Phrasebook.Command

/-- Why arguments are refused, or are not a request to compile. -/
inductive ArgumentError where
  /-- An argument is neither an option nor the value of one. -/
  | unknownArgument
  /-- The value of an option is missing or is not one that it takes. -/
  | invalidValue
  /-- An option that can be given once is given twice. -/
  | argumentConflict
  /-- An option without a value is given one. -/
  | tooManyValues
  /-- Help is asked for, in the long or in the short form. -/
  | displayHelp (long : Bool)
  /-- The version is asked for. -/
  | displayVersion
  deriving DecidableEq, Repr

/-- The name of the kind of an error. -/
def ArgumentError.kind : ArgumentError → Text
  | unknownArgument => "UnknownArgument"
  | invalidValue => "InvalidValue"
  | argumentConflict => "ArgumentConflict"
  | tooManyValues => "TooManyValues"
  | displayHelp _ => "DisplayHelp"
  | displayVersion => "DisplayVersion"

/-- An option that waits to be closed, with its value once that is there. -/
structure Pending where
  setting : Setting
  value : Option Text
  deriving DecidableEq, Repr

/-- The state between two arguments. -/
structure Progress where
  options : Options := {}
  /-- The options that have been closed. -/
  seen : List Flag := []
  pending : Option Pending := none
  /-- Whether two dashes have ended the options. -/
  ended : Bool := false
  deriving DecidableEq, Repr

namespace Progress

/-- The options with a switch turned on. -/
def turnOn (options : Options) : Switch → Options
  | .noProvider => { options with noProvider := true }
  | .check => { options with check := true }
  | .strict => { options with strict := true }
  | .watch => { options with watch := true }
  | .preserveWatchOutput => { options with preserveWatchOutput := true }
  | .timings => { options with timings := true }
  | .verbose => { options with verbose := true }

/-- The options with a setting, if it takes the value. Paths are not empty. -/
def assign (options : Options) (setting : Setting) (value : Text) : Except ArgumentError Options :=
  match setting with
  | .dir => if value.isEmpty then .error .invalidValue else .ok { options with dir := value }
  | .lang => .ok { options with langs := options.langs ++ [value] }
  | .outDir =>
    if value.isEmpty then .error .invalidValue else .ok { options with outDir := some value }
  | .config =>
    if value.isEmpty then .error .invalidValue else .ok { options with config := some value }
  | .importRoot => .ok { options with importRoot := some value }
  | .output =>
    match Format.ofName? value with
    | some format => .ok { options with output := format }
    | none => .error .invalidValue

/-- Takes note that an option occurs. Only languages may be given more than once. -/
def note (p : Progress) (flag : Flag) : Except ArgumentError Progress :=
  if flag ∈ p.seen ∧ flag ≠ .setting .lang then .error .argumentConflict
  else .ok { p with seen := flag :: p.seen }

/-- Gives a setting its value. -/
def set (p : Progress) (setting : Setting) (value : Text) : Except ArgumentError Progress := do
  let p ← p.note (.setting setting)
  let options ← assign p.options setting value
  return { p with options }

/-- Closes the option that waits, if there is one. -/
def close (p : Progress) : Except ArgumentError Progress :=
  match p.pending with
  | none => .ok p
  | some ⟨_, none⟩ => .error .invalidValue
  | some ⟨setting, some value⟩ => { p with pending := none }.set setting value

/-- Takes an option without an attached value. -/
def take (p : Progress) (flag : Flag) (long : Bool) : Except ArgumentError Progress := do
  let p ← p.close
  match flag with
  | .switch s =>
    let p ← p.note flag
    return { p with options := turnOn p.options s }
  | .setting s => return { p with pending := some ⟨s, none⟩ }
  | .help => throw (.displayHelp long)
  | .version => throw .displayVersion

/-- Takes a long option, given what follows the two dashes. -/
def takeLong (p : Progress) (text : Text) : Except ArgumentError Progress :=
  let (name, value) :=
    match Text.splitFirst '=' text with
    | some (name, value) => (name, some value)
    | none => (text, none)
  match longNames.lookup name, value with
  | none, _ => .error .unknownArgument
  | some flag, none => p.take flag true
  | some (.setting s), some value => do (← p.close).set s value
  | some _, some _ => .error .tooManyValues

/-- Takes short options, given what follows the dash. A setting takes what follows it as its value,
without an equals sign in front. -/
def takeShort (p : Progress) : Text → Except ArgumentError Progress
  | [] => .ok p
  | c :: rest =>
    match shortNames.lookup c with
    | none => .error .unknownArgument
    | some (.setting s) =>
      match rest with
      | [] => p.take (.setting s) false
      | d :: value => do (← p.close).set s (if d = '=' then value else d :: value)
    | some flag => do takeShort (← p.take flag false) rest

/-- Takes an argument that is not an option: the value of the option that waits for one. -/
def takeValue (p : Progress) (value : Text) : Except ArgumentError Progress :=
  match p.pending with
  | some ⟨setting, none⟩ => .ok { p with pending := some ⟨setting, some value⟩ }
  | _ => .error .unknownArgument

/-- Takes an argument. -/
def takeArgument (p : Progress) (argument : Text) : Except ArgumentError Progress :=
  if p.ended then .error .unknownArgument
  else
    match argument with
    | '-' :: '-' :: [] => .ok { p with ended := true }
    | '-' :: '-' :: text => p.takeLong text
    | '-' :: c :: text => p.takeShort (c :: text)
    | value => p.takeValue value

/-- Takes arguments in order. -/
def takeArguments (p : Progress) : List Text → Except ArgumentError Progress
  | [] => .ok p
  | argument :: rest => do takeArguments (← p.takeArgument argument) rest

end Progress

/-- The options of a list of arguments. -/
def Options.parse (arguments : List Text) : Except ArgumentError Options := do
  let p ← ({} : Progress).takeArguments arguments
  let p ← p.close
  return p.options

end Phrasebook.Command
