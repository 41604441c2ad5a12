import Phrasebook.Command.Arguments
import Phrasebook.Command.Config
import Phrasebook.Command.Help
import Phrasebook.Command.Output

/-!
# Runs

A run loads the configuration, loads and compiles every catalog, reports on patterns and on keys
that differ, and then writes the modules. Nothing is written before all catalogs are compiled.
-/

namespace Phrasebook.Command

open Files

/-- What a run printed and noted, and its summary or the report of its failure. -/
structure Outcome where
  output : Text := []
  errorOutput : Text := []
  log : List Event := []
  result : Except Report Summary

/-- An outcome with things in front that happened before it. -/
def Outcome.after (outcome : Outcome) (output : Text) (log : List Event) : Outcome :=
  { outcome with output := output ++ outcome.output, log := log ++ outcome.log }

/-- The report of a catalog that cannot be made. -/
def catalogReport (language : Text) (error : Catalog.Error) : Report :=
  ("Failed to compile " ++ Catalog.sourceName language) :: error.message :: error.cause?.toList

/-- The total of counts. -/
def total (counts : List Nat) : Nat := counts.foldr Nat.add 0

/-- The number of diagnostics of a severity in catalogs. -/
def countDiagnostics (severity : Pattern.Severity) (catalogs : List Catalog) : Nat :=
  total (catalogs.map fun catalog =>
    (catalog.diagnostics.filter fun (_, d) => d.severity = severity).length)

/-- The catalogs after the first one whose keys differ from those of the first one. -/
def keyMismatches : List Catalog → List (Catalog × Catalog × Catalog.KeyDifference)
  | [] => []
  | reference :: rest =>
    (rest.map fun catalog => (catalog, reference, catalog.keyDifference reference)).filter
      fun (_, _, difference) => !difference.isEmpty

/-- What is printed about the patterns and the keys of catalogs. -/
def reportOutput (config : Config) (format : Format) (catalogs : List Catalog) : Text :=
  (catalogs.flatMap fun catalog =>
    Output.diagnostics format (config.inputPath catalog.language) catalog.store.entries) ++
  (keyMismatches catalogs).flatMap fun (catalog, reference, difference) =>
    Output.keys format (config.inputPath catalog.language) reference.language difference

/-- What is noted about the keys of catalogs. -/
def reportLog (catalogs : List Catalog) : List Event :=
  (keyMismatches catalogs).map fun (catalog, reference, difference) =>
    .keysDiffer catalog.language reference.language difference.missing.length
      difference.extra.length

/-- The files that a run writes, in order: a module for each language, and the provider. -/
def outputFiles (config : Config) (catalogs : List Catalog) : List (Text × Text) :=
  (catalogs.map fun catalog => (config.outputPath catalog.language, catalog.store.moduleText)) ++
    config.providerPath.toList.map fun path =>
      (path, Provider.moduleText config.importRoot (catalogs.map Catalog.language))

/-- The summary of a run over catalogs that wrote some files. -/
def summarize (catalogs : List Catalog) (written milliseconds : Nat) : Summary where
  languages := catalogs.length
  keys := total (catalogs.map fun catalog => catalog.store.size)
  warnings := countDiagnostics .warning catalogs +
    total ((keyMismatches catalogs).map fun (_, _, difference) => difference.size)
  hints := countDiagnostics .hint catalogs
  written := written
  milliseconds := milliseconds

variable {m : Type → Type} [Monad m]

/-- The catalogs of languages, in order. Languages can as well be loaded in parallel, and then it is
left open which failure is reported if there are several. Here it is that of the first language. -/
def loadCatalogs (disk : Disk m) (config : Config) : List Text → m (Except Report (List Catalog))
  | [] => return .ok []
  | language :: rest => do
    let path := config.inputPath language
    let result : Except Catalog.Error Catalog ← do
      match ← disk.read path with
      | .error fault => pure (.error (.unreadable path fault))
      | .ok text => pure (Catalog.load language path text).result
    match result with
    | .error error => return .error (catalogReport language error)
    | .ok catalog =>
      match ← loadCatalogs disk config rest with
      | .error report => return .error report
      | .ok catalogs => return .ok (catalog :: catalogs)

/-- Writes files in order, up to the first failure, and takes note of each. -/
def writeFiles (disk : Disk m) : List (Text × Text) → m (List Event × Except Report Unit)
  | [] => return ([], .ok ())
  | (path, content) :: rest => do
    match ← disk.write path content with
    | .error fault => return ([], .error ["Failed to write " ++ path, fault.message])
    | .ok () =>
      let (log, result) ← writeFiles disk rest
      return (.wroteFile path (Text.width content) :: log, result)

/-- Makes the output directory and writes all files. -/
def writeOutputs (disk : Disk m) (config : Config) (catalogs : List Catalog) :
    m (List Event × Except Report Unit) := do
  match ← disk.makeDirectories config.outDir with
  | .error fault => return ([], .error ["Failed to create " ++ config.outDir, fault.message])
  | .ok () => writeFiles disk (outputFiles config catalogs)

/-- The end of a run, which prints the summary. -/
def conclude (options : Options) (summary : Summary) : Outcome where
  output := Output.summary options.output summary
  errorOutput :=
    if options.timings then
      "\nTiming: " ++ Text.decimal summary.milliseconds ++ "ms\n"
    else []
  result := .ok summary

/-- A run with a configuration. The clock gives the time that the run took. -/
def runWith (disk : Disk m) (clock : m Nat) (options : Options) (config : Config) :
    m Outcome := do
  let start := if config.languages.isEmpty then [.noCatalogs config.dir] else []
  match ← loadCatalogs disk config config.languages with
  | .error report => return { log := start, result := .error report }
  | .ok catalogs =>
    let output := reportOutput config options.output catalogs
    let log := start ++ reportLog catalogs
    if options.check then
      return (conclude options (summarize catalogs 0 (← clock))).after output log
    else
      let (written, result) ← writeOutputs disk config catalogs
      match result with
      | .error report => return { output, log := log ++ written, result := .error report }
      | .ok () =>
        let summary := summarize catalogs (outputFiles config catalogs).length (← clock)
        return (conclude options summary).after output (log ++ written)

/-- A run with given options. -/
def run (disk : Disk m) (clock : m Nat) (options : Options) : m Outcome := do
  match ← Config.load disk options with
  | .error report => return { result := .error report }
  | .ok config =>
    let outcome ← runWith disk clock options config
    return outcome.after [] (config.settingsPath.toList.map .loadedSettings)

/-- The exit code of a run: one if it failed, or if it is strict and there are warnings. -/
def exitCode (options : Options) : Except Report Summary → Nat
  | .error _ => 1
  | .ok summary => if options.strict && summary.warnings != 0 then 1 else 0

/-- What the command printed, and how it ended. -/
structure Execution where
  output : Text := []
  errorOutput : Text := []
  log : List Event := []
  report : Report := []
  /-- Whether all events are to be shown. -/
  verbose : Bool := false
  exitCode : Nat

/-- The command with given arguments. Help and version are printed as asked for. -/
def execute (disk : Disk m) (clock : m Nat) (arguments : List Text) : m Execution := do
  match Options.parse arguments with
  | .error (.displayHelp long) =>
    return { output := if long then longHelp else shortHelp, exitCode := 0 }
  | .error .displayVersion => return { output := versionText, exitCode := 0 }
  | .error error => return { errorOutput := error.kind ++ ['\n'], exitCode := 2 }
  | .ok options =>
    let outcome ← run disk clock options
    let report := match outcome.result with
      | .error report => report
      | .ok _ => []
    return { output := outcome.output, errorOutput := outcome.errorOutput, log := outcome.log,
             report, verbose := options.verbose, exitCode := exitCode options outcome.result }

end Phrasebook.Command
