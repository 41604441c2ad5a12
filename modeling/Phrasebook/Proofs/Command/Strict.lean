import Phrasebook.Proofs.Catalog.Leaves
import Phrasebook.Proofs.Command.Running
import Phrasebook.Proofs.Json.Printing
import Phrasebook.Proofs.Pattern.Texts
import Mathlib.Algebra.GroupWithZero.Nat
import Mathlib.Algebra.Order.BigOperators.Group.List
import Mathlib.Algebra.Order.Group.Nat

/-!
# Strict runs

A strict run fails if there are warnings. Only the keys of the first language are compared with
those of the others, and a warning counts for each key that differs. All the same, a strict run that
goes through succeeds if and only if no pattern has a warning and all languages have the same keys.
So the order of the languages makes no difference to its success, though it does to the count.
-/

namespace Phrasebook

namespace Command

open Files Pattern

/-! ### Counts -/

/-- What is said about the patterns of catalogs. -/
def said (catalogs : List Catalog) : List Diagnostic :=
  catalogs.flatMap fun catalog => catalog.store.entries.flatMap fun entry =>
    entry.compiled.diagnostics

/-- The number of keys in which catalogs differ from the first one. -/
def keyDistance : List Catalog → Nat
  | [] => 0
  | first :: rest =>
    (rest.map fun catalog => (symmDiff catalog.keySet first.keySet).card).sum

theorem countDiagnostics_eq (severity : Severity) (catalogs : List Catalog) :
    countDiagnostics severity catalogs =
      (said catalogs).countP fun d => d.severity = severity := by
  have hcatalog (catalog : Catalog) :
      (catalog.diagnostics.filter fun said => said.2.severity = severity).length =
        (catalog.store.entries.flatMap fun entry => entry.compiled.diagnostics).countP
          fun d => d.severity = severity := by
    have hsaid : (catalog.store.entries.flatMap fun entry => entry.compiled.diagnostics) =
        catalog.diagnostics.map Prod.snd := by
      simp [Catalog.diagnostics, List.map_flatMap, Function.comp_def]
    rw [hsaid, List.countP_map, ← List.countP_eq_length_filter]
    rfl
  rw [said, List.countP_flatMap]
  exact congrArg List.sum (List.map_congr_left fun catalog _ => hcatalog catalog)

/-- Catalogs whose keys do not differ add nothing to the count. -/
theorem total_keyMismatches (catalogs : List Catalog) :
    total ((keyMismatches catalogs).map fun (_, _, difference) => difference.size) =
      keyDistance catalogs := by
  cases catalogs with
  | nil => rfl
  | cons first rest =>
    rw [keyMismatches, keyDistance]
    induction rest with
    | nil => rfl
    | cons catalog rest ih =>
      rw [List.map_cons, List.map_cons, List.sum_cons, ← ih, ← Catalog.size_keyDifference,
        List.filter_cons]
      split_ifs with hdiffers
      · rfl
      · rw [Catalog.KeyDifference.size_of_isEmpty (by simpa using hdiffers), Nat.zero_add]

/-- Warnings are those about patterns, and one for each key that differs. -/
theorem warnings_summarize (catalogs : List Catalog) (written milliseconds : Nat) :
    (summarize catalogs written milliseconds).warnings =
      (said catalogs).countP (fun d => d.severity = .warning) + keyDistance catalogs := by
  rw [summarize, countDiagnostics_eq, total_keyMismatches]

theorem keys_summarize (catalogs : List Catalog) (written milliseconds : Nat) :
    (summarize catalogs written milliseconds).keys =
      (catalogs.map fun catalog => catalog.keySet.card).sum := by
  simp only [summarize, Catalog.card_keySet]
  rfl

/-! ### Agreement -/

/-- No pattern of a catalog has a warning, and any two catalogs have the same keys. -/
structure Agree (catalogs : List Catalog) : Prop where
  warningFree : ∀ catalog ∈ catalogs, ∀ entry ∈ catalog.store.entries,
    WarningFree entry.compiled.diagnostics
  sameKeys : ∀ a ∈ catalogs, ∀ b ∈ catalogs, a.keySet = b.keySet

/-- Some of the catalogs agree if all of them do. -/
theorem Agree.of_subset {catalogs catalogs' : List Catalog} (h : Agree catalogs)
    (hsub : catalogs' ⊆ catalogs) : Agree catalogs' where
  warningFree catalog hcatalog := h.warningFree catalog (hsub hcatalog)
  sameKeys a ha b hb := h.sameKeys a (hsub ha) b (hsub hb)

theorem Agree.perm {catalogs catalogs' : List Catalog} (hperm : catalogs'.Perm catalogs) :
    Agree catalogs' ↔ Agree catalogs :=
  ⟨fun h => h.of_subset hperm.symm.subset, fun h => h.of_subset hperm.subset⟩

theorem countP_said_eq_zero_iff {catalogs : List Catalog} :
    (said catalogs).countP (fun d => d.severity = .warning) = 0 ↔
      ∀ catalog ∈ catalogs, ∀ entry ∈ catalog.store.entries,
        WarningFree entry.compiled.diagnostics := by
  simp only [List.countP_eq_zero, said, List.mem_flatMap, decide_eq_true_eq, WarningFree]
  constructor
  · intro h catalog hcatalog entry hentry d hd
    exact h d ⟨catalog, hcatalog, entry, hentry, hd⟩
  · rintro h d ⟨catalog, hcatalog, entry, hentry, hd⟩
    exact h catalog hcatalog entry hentry d hd

/-- If no keys differ from those of the first catalog, no keys differ at all. -/
theorem keyDistance_eq_zero_iff {catalogs : List Catalog} :
    keyDistance catalogs = 0 ↔ ∀ a ∈ catalogs, ∀ b ∈ catalogs, a.keySet = b.keySet := by
  cases catalogs with
  | nil => simp [keyDistance]
  | cons first rest =>
    have hfirst : keyDistance (first :: rest) = 0 ↔
        ∀ catalog ∈ rest, catalog.keySet = first.keySet := by
      simp [keyDistance, List.sum_eq_zero_iff, ← Finset.bot_eq_empty, symmDiff_eq_bot]
    rw [hfirst]
    constructor
    · intro h
      have hall : ∀ catalog ∈ first :: rest, catalog.keySet = first.keySet :=
        List.forall_mem_cons.mpr ⟨rfl, h⟩
      exact fun a ha b hb => (hall a ha).trans (hall b hb).symm
    · intro h catalog hcatalog
      exact h catalog (List.mem_cons_of_mem _ hcatalog) first List.mem_cons_self

/-- There are no warnings if and only if catalogs agree. -/
theorem warnings_eq_zero_iff {catalogs : List Catalog} {written milliseconds : Nat} :
    (summarize catalogs written milliseconds).warnings = 0 ↔ Agree catalogs := by
  rw [warnings_summarize, Nat.add_eq_zero_iff, countP_said_eq_zero_iff, keyDistance_eq_zero_iff]
  exact ⟨fun h => ⟨h.1, h.2⟩, fun h => ⟨h.warningFree, h.sameKeys⟩⟩

/-- A strict run with the summary of catalogs succeeds if and only if they agree. -/
theorem exitCode_eq_zero_iff {options : Options} (hstrict : options.strict = true)
    {catalogs : List Catalog} {written milliseconds : Nat} :
    exitCode options (.ok (summarize catalogs written milliseconds)) = 0 ↔ Agree catalogs := by
  have hcode : exitCode options (.ok (summarize catalogs written milliseconds)) = 0 ↔
      (summarize catalogs written milliseconds).warnings = 0 := by
    simp [exitCode, hstrict]
  exact hcode.trans warnings_eq_zero_iff

/-- For the exit code it only matters whether there are warnings. -/
theorem exitCode_congr (options : Options) {summary summary' : Summary}
    (h : summary.warnings = 0 ↔ summary'.warnings = 0) :
    exitCode options (.ok summary) = exitCode options (.ok summary') := by
  simp [exitCode, h]

/-! ### The command -/

/-- Arguments ask for a run, which goes through: the configuration and all catalogs load, and all
files are written. -/
structure Succeeds (w : Workspace) (arguments : List Text) (options : Options) (config : Config)
    (catalogs : List Catalog) : Prop extends GoesThrough w options config catalogs where
  parsed : Options.parse arguments = .ok options
  once : options.watch = false
  configured : (Config.load Disk.workspace options w).1 = .ok config

section Execution

variable {w : Workspace} {arguments : List Text} {options : Options}

theorem exitCode_execute (h : Options.parse arguments = .ok options)
    (clock : StateM Workspace Nat) :
    (execute Disk.workspace clock arguments w).1.exitCode =
      exitCode options (run Disk.workspace clock options w).1.result := by
  simp only [execute, h]
  rfl

end Execution

/-! ### Three languages -/

/-- The text of a catalog with one key. -/
def shortText : Text := "\x7b\"x\":\"\"\x7d"

/-- The text of a catalog with one more key. -/
def longText : Text := "\x7b\"x\":\"\",\"y\":\"\"\x7d"

/-- The catalog of a language with the empty pattern under each of some keys. -/
def keyCatalog (language : Text) (keys : List Text) : Catalog :=
  ⟨language, .ofEntries (keys.map fun key => .compile key [])⟩

/-- Three languages, of which the second one has one more key than the others. -/
def threeLanguages : Workspace where
  tree := ⟨[(["a.json"], .file (.text shortText)), (["b.json"], .file (.text longText)),
    (["c.json"], .file (.text shortText))]⟩
  directory := []

def threeCatalogs : List Catalog :=
  [keyCatalog "a" ["x"], keyCatalog "b" ["x", "y"], keyCatalog "c" ["x"]]

/-- The catalogs of `threeLanguages`, with the longer one in front. -/
def swappedCatalogs : List Catalog :=
  [keyCatalog "b" ["x", "y"], keyCatalog "a" ["x"], keyCatalog "c" ["x"]]

def swappedLanguages : List Text := ["b", "a", "c"]

def threeArguments : List Text :=
  ["--strict", "--no-provider", "--output=machine", "-la", "-lb", "-lc"]

def threeOptions : Options :=
  { langs := ["a", "b", "c"], noProvider := true, strict := true, output := .machine }

def threeConfig : Config where
  dir := "."
  outDir := "."
  languages := ["a", "b", "c"]
  importRoot := Provider.defaultImportRoot
  providerFile := none
  settingsPath := none

theorem read_shortText : Json.read shortText = .ok (.object [("x", .string [])]) := by
  have htext : shortText = Json.render (.object [("x", .string [])]) := by decide
  rw [htext, Json.read_render (by simp [Json.depthLimit, Json.Printable])]

theorem read_longText :
    Json.read longText = .ok (.object [("x", .string []), ("y", .string [])]) := by
  have htext : longText = Json.render (.object [("x", .string []), ("y", .string [])]) := by decide
  rw [htext, Json.read_render (by simp [Json.depthLimit, Json.Printable])]

theorem loads_first : Loads threeLanguages threeConfig "a" (keyCatalog "a" ["x"]) :=
  ⟨shortText, rfl, Catalog.load_eq_ok_iff.mpr ⟨_, read_shortText, rfl, rfl⟩⟩

theorem loads_second : Loads threeLanguages threeConfig "b" (keyCatalog "b" ["x", "y"]) :=
  ⟨longText, rfl, Catalog.load_eq_ok_iff.mpr ⟨_, read_longText, rfl, rfl⟩⟩

theorem loads_third : Loads threeLanguages threeConfig "c" (keyCatalog "c" ["x"]) :=
  ⟨shortText, rfl, Catalog.load_eq_ok_iff.mpr ⟨_, read_shortText, rfl, rfl⟩⟩

/-- The paths of the modules of `threeLanguages`. -/
def threePaths : List Text := ["./a.ts", "./b.ts", "./c.ts"]

theorem paths_threeCatalogs :
    (outputFiles threeConfig threeCatalogs).map Prod.fst = threePaths := by
  decide +kernel

theorem writable_threePaths : ∀ path ∈ threePaths, threeLanguages.Writable path := by
  simp only [threePaths, List.forall_mem_cons, List.not_mem_nil, false_imp_iff, implies_true,
    and_true]
  exact ⟨⟨["a.ts"], rfl, by decide⟩, ⟨["b.ts"], rfl, by decide⟩, ⟨["c.ts"], rfl, by decide⟩⟩

theorem succeeds_threeLanguages :
    Succeeds threeLanguages threeArguments threeOptions threeConfig threeCatalogs where
  loads := .cons loads_first (.cons loads_second (.cons loads_third .nil))
  writes _ := by
    have hdirectory :
        threeLanguages.makeDirectories threeConfig.outDir = (threeLanguages, .ok ()) := rfl
    rw [writeOutputs_ok_iff, hdirectory]
    refine ⟨rfl, fun file hfile => ?_⟩
    have hpath := List.mem_map_of_mem (f := Prod.fst) hfile
    rw [paths_threeCatalogs] at hpath
    exact writable_threePaths file.1 hpath
  parsed := rfl
  once := rfl
  configured := rfl

theorem warnings_threeCatalogs (written milliseconds : Nat) :
    (summarize threeCatalogs written milliseconds).warnings = 1 := by
  simp only [summarize]
  decide +kernel

theorem warnings_swappedCatalogs (written milliseconds : Nat) :
    (summarize swappedCatalogs written milliseconds).warnings = 2 := by
  simp only [summarize]
  decide +kernel

theorem reportOutput_threeCatalogs :
    reportOutput threeConfig threeOptions.output threeCatalogs = "./b.json:extra-key:y\n" := by
  decide +kernel

theorem reportOutput_swappedCatalogs :
    reportOutput { threeConfig with languages := swappedLanguages } threeOptions.output
        swappedCatalogs =
      "./a.json:missing-key:y\n./c.json:missing-key:y\n" := by
  decide +kernel

/-! ### Strict runs -/

/-- A run that goes through counts the warnings and hints of all patterns, and the keys that differ
from those of the first language. If it is strict, it succeeds if and only if the catalogs agree.
Its exit code does not depend on the order of the languages, though the warnings and the output
can. -/
theorem strict_exit_iff_agree :
    (∀ w (clock : StateM Workspace Nat) arguments options config catalogs,
      Succeeds w arguments options config catalogs →
        (∃ summary, (run Disk.workspace clock options w).1.result = .ok summary ∧
          summary.warnings =
            (said catalogs).countP (fun d => d.severity = .warning) + keyDistance catalogs ∧
          summary.hints = (said catalogs).countP (fun d => d.severity = .hint) ∧
          summary.keys = (catalogs.map fun catalog => catalog.keySet.card).sum) ∧
        (options.strict = true →
          ((execute Disk.workspace clock arguments w).1.exitCode = 0 ↔ Agree catalogs)) ∧
        ∀ languages, languages.Perm config.languages →
          ∃ summary,
            (runWith Disk.workspace clock options { config with languages } w).1.result =
              .ok summary ∧
            exitCode options (.ok summary) =
              (execute Disk.workspace clock arguments w).1.exitCode) ∧
      ∃ w arguments options config catalogs languages,
        Succeeds w arguments options config catalogs ∧ options.strict = true ∧
          languages.Perm config.languages ∧
          ∃ summary summary' : Summary,
            (runWith Disk.workspace (pure 0) options config w).1.result = .ok summary ∧
            (runWith Disk.workspace (pure 0) options { config with languages } w).1.result =
              .ok summary' ∧
            summary.warnings ≠ summary'.warnings ∧
            (runWith Disk.workspace (pure 0) options config w).1.output ≠
              (runWith Disk.workspace (pure 0) options { config with languages } w).1.output := by
  constructor
  · intro w clock arguments options config catalogs h
    obtain ⟨written, milliseconds, hresult, -⟩ := h.exists_summary clock
    have hrun := result_run h.configured clock
    rw [hresult] at hrun
    have hexit := exitCode_execute (w := w) h.parsed clock
    rw [hrun] at hexit
    refine ⟨⟨_, hrun, ?_, ?_, ?_⟩, fun hstrict => ?_, fun languages hperm => ?_⟩
    · exact warnings_summarize catalogs written milliseconds
    · exact countDiagnostics_eq .hint catalogs
    · exact keys_summarize catalogs written milliseconds
    · rw [hexit]
      exact exitCode_eq_zero_iff hstrict
    · -- The two runs may count differently, but one counts nothing if and only if the other does.
      obtain ⟨catalogs', hcatalogs, hthrough⟩ := h.exists_perm hperm
      obtain ⟨written', milliseconds', hresult', -⟩ := hthrough.exists_summary clock
      refine ⟨_, hresult', ?_⟩
      rw [hexit]
      refine exitCode_congr options ?_
      rw [warnings_eq_zero_iff, warnings_eq_zero_iff, Agree.perm hcatalogs]
  · have h := succeeds_threeLanguages
    have hthrough : GoesThrough threeLanguages threeOptions
        { threeConfig with languages := swappedLanguages } swappedCatalogs :=
      h.of_perm (.swap _ _ _) (.cons loads_second (.cons loads_first (.cons loads_third .nil)))
    obtain ⟨_, _, hresult, houtput⟩ := h.exists_summary (pure 0)
    obtain ⟨_, _, hresult', houtput'⟩ := hthrough.exists_summary (pure 0)
    refine ⟨threeLanguages, threeArguments, threeOptions, threeConfig, threeCatalogs,
      swappedLanguages, h, rfl, .swap _ _ _, _, _, hresult, hresult', ?_, ?_⟩
    · rw [warnings_threeCatalogs, warnings_swappedCatalogs]
      decide
    · have hsilent (summary : Summary) : Output.summary threeOptions.output summary = [] := rfl
      rw [houtput, houtput', hsilent, hsilent, reportOutput_threeCatalogs,
        reportOutput_swappedCatalogs]
      decide

theorem strict_exit_iff_agree_three :
    Succeeds threeLanguages threeArguments threeOptions threeConfig threeCatalogs ∧
      (execute Disk.workspace (pure 0) threeArguments threeLanguages).1.exitCode ≠ 0 ∧
      ∃ summary,
        (runWith Disk.workspace (pure 0) threeOptions
          { threeConfig with languages := swappedLanguages } threeLanguages).1.result =
            .ok summary ∧
        exitCode threeOptions (.ok summary) ≠ 0 := by
  obtain ⟨-, hexit, hperm⟩ := strict_exit_iff_agree.1 threeLanguages (pure 0) threeArguments
    threeOptions threeConfig threeCatalogs succeeds_threeLanguages
  have hcode : (execute Disk.workspace (pure 0) threeArguments threeLanguages).1.exitCode ≠ 0 := by
    rw [ne_eq, hexit rfl]
    intro hagree
    have hkeys := hagree.sameKeys (keyCatalog "a" ["x"]) (by simp [threeCatalogs])
      (keyCatalog "b" ["x", "y"]) (by simp [threeCatalogs])
    revert hkeys
    decide
  obtain ⟨summary, hresult, hsame⟩ := hperm swappedLanguages (.swap _ _ _)
  exact ⟨succeeds_threeLanguages, hcode, summary, hresult, by rwa [hsame]⟩

end Command

end Phrasebook
