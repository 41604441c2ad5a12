import Phrasebook.Proofs.Catalog.Leaves
import Phrasebook.Proofs.Command.Running
import Phrasebook.Proofs.Files.Overwriting
import Phrasebook.Proofs.Json.Printing
import Mathlib.Data.List.Forall2

/-!
# What a run changes

A run reads everything before it writes anything. So a run that only checks, or that cannot read
what it needs, leaves all files alone, however many catalogs load. Any other run changes no more
than the output directory and the files of its configuration. If it succeeds, the module of a
language holds what the catalog of that language had in it before, unless something else is written
to the same file later on. Languages can share a module without sharing a catalog, since dots in
their names lead to other directories: then the last one wins.

## Main definitions

* `Command.Broken`: why the catalog of a language cannot be made.
* `Command.Config.outputPaths`: the files that a configuration writes.
* `Command.spots`: the locations of files, with what is written there.

## Main results

* `Command.touches_writeOutputs`: writing changes no more than the paths of the output.
* `Command.writeOutputs_of_ok`: what the tree is after all output was written.
* `Command.execute_changes`: what the command changes, and what it leaves alone.
* `Command.later_module_stays`: two languages that share a module.
-/

namespace Phrasebook

namespace Command

open Files

/-! ### Catalogs -/

section Catalogs

variable {w : Workspace} {config : Config} {language : Text} {languages : List Text}
  {catalog : Catalog} {catalogs : List Catalog}

theorem Loads.language_eq (h : Loads w config language catalog) : catalog.language = language := by
  obtain ⟨text, -, hload⟩ := h
  obtain ⟨-, -, -, hlanguage⟩ := Catalog.load_eq_ok_iff.mp hload
  exact hlanguage

/-- Languages with the same file have the same patterns. -/
theorem Loads.store_eq {other : Text} {catalog' : Catalog} (h : Loads w config language catalog)
    (h' : Loads w config other catalog')
    (hsame : w.resolve (config.inputPath other) = w.resolve (config.inputPath language)) :
    catalog'.store = catalog.store := by
  obtain ⟨text, hread, hload⟩ := h
  obtain ⟨text', hread', hload'⟩ := h'
  have hobject : w.object (config.inputPath other) = w.object (config.inputPath language) := by
    rw [Workspace.object, Workspace.object, hsame]
  rw [Workspace.read, hobject, ← Workspace.read, hread] at hread'
  obtain rfl : text = text' := Except.ok.inj hread'
  obtain ⟨tree, htree, hstore, -⟩ := Catalog.load_eq_ok_iff.mp hload
  obtain ⟨tree', htree', hstore', -⟩ := Catalog.load_eq_ok_iff.mp hload'
  obtain rfl : tree = tree' := Except.ok.inj (htree.symm.trans htree')
  exact Except.ok.inj (hstore'.symm.trans hstore)

/-- Why the catalog of a language cannot be made. -/
inductive Broken (w : Workspace) (config : Config) (language : Text) : Prop where
  /-- Its file cannot be read. -/
  | unreadable {fault : Fault} (hread : w.read (config.inputPath language) = .error fault)
  /-- The text of the file is not JSON. -/
  | invalid {text : Text} {error : Json.Located}
      (hread : w.read (config.inputPath language) = .ok text)
      (hjson : Json.read text = .error error)
  /-- The root of the tree is not an object. -/
  | root {text : Text} {tree : Json} (hread : w.read (config.inputPath language) = .ok text)
      (hjson : Json.read text = .ok tree) (hroot : ¬ tree.IsObject)
  /-- Some leaf is null or a boolean. -/
  | leaf {text : Text} {tree : Json} (hread : w.read (config.inputPath language) = .ok text)
      (hjson : Json.read text = .ok tree) (hleaf : ∃ leaf ∈ tree.leaves, leaf.Refused)

theorem Broken.not_loads (h : Broken w config language) : ¬ Loads w config language catalog := by
  rintro ⟨text, htext, hload⟩
  obtain ⟨tree, htree, hstore, -⟩ := Catalog.load_eq_ok_iff.mp hload
  cases h with
  | unreadable hread => simp [hread] at htext
  | invalid hread hjson =>
    obtain rfl := Except.ok.inj (hread.symm.trans htext)
    simp [hjson] at htree
  | root hread hjson hroot =>
    obtain rfl := Except.ok.inj (hread.symm.trans htext)
    obtain rfl := Except.ok.inj (hjson.symm.trans htree)
    simp [Catalog.flatten_of_not_isObject hroot] at hstore
  | leaf hread hjson hleaf =>
    obtain rfl := Except.ok.inj (hread.symm.trans htext)
    obtain rfl := Except.ok.inj (hjson.symm.trans htree)
    rename_i tree
    by_cases hroot : tree.IsObject
    · obtain ⟨before, leaf, after, hsplit, hbefore, hrefused⟩ := Catalog.exists_first_refused hleaf
      simp [Catalog.flatten_of_refused hroot hsplit hbefore hrefused] at hstore
    · simp [Catalog.flatten_of_not_isObject hroot] at hstore

/-- To load catalogs changes no file. Either each language has its catalog, or there is a report. -/
theorem loadCatalogs_eq_or (w : Workspace) (config : Config) (languages : List Text) :
    (∃ catalogs, loadCatalogs Disk.workspace config languages w = (.ok catalogs, w) ∧
        List.Forall₂ (Loads w config) languages catalogs) ∨
      ∃ report, loadCatalogs Disk.workspace config languages w = (.error report, w) := by
  induction languages with
  | nil => exact .inl ⟨[], rfl, .nil⟩
  | cons language rest ih =>
    rw [loadCatalogs_cons]
    cases hcatalog : catalogOf w config language with
    | error error => exact .inr ⟨_, rfl⟩
    | ok catalog =>
      rcases ih with ⟨catalogs, hrest, hloads⟩ | ⟨report, hrest⟩
      · rw [hrest]
        exact .inl ⟨_, rfl, .cons (catalogOf_eq_ok_iff.mp hcatalog) hloads⟩
      · rw [hrest]
        exact .inr ⟨_, rfl⟩

/-- The catalog of a language stands among the others as the language does. -/
theorem exists_loads_of_append {earlier later : List Text}
    (h : List.Forall₂ (Loads w config) (earlier ++ language :: later) catalogs) :
    ∃ before catalog after, catalogs = before ++ catalog :: after ∧
      Loads w config language catalog ∧ List.Forall₂ (Loads w config) later after := by
  have hdrop := List.forall₂_drop earlier.length h
  rw [List.drop_left, List.forall₂_cons_left_iff] at hdrop
  obtain ⟨catalog, after, hcatalog, hafter, hsplit⟩ := hdrop
  refine ⟨catalogs.take earlier.length, catalog, after, ?_, hcatalog, hafter⟩
  rw [← hsplit, List.take_append_drop]

theorem loads_of_mem (h : List.Forall₂ (Loads w config) languages catalogs)
    (hcatalog : catalog ∈ catalogs) :
    catalog.language ∈ languages ∧ Loads w config catalog.language catalog := by
  induction h with
  | nil => simp at hcatalog
  | @cons language first languages catalogs hfirst _ ih =>
    rcases List.mem_cons.mp hcatalog with rfl | hrest
    · rw [hfirst.language_eq]
      exact ⟨List.mem_cons_self, hfirst⟩
    · obtain ⟨hmem, hloads⟩ := ih hrest
      exact ⟨List.mem_cons_of_mem _ hmem, hloads⟩

theorem map_language_eq (h : List.Forall₂ (Loads w config) languages catalogs) :
    catalogs.map Catalog.language = languages := by
  induction h with
  | nil => rfl
  | cons hfirst _ ih => rw [List.map_cons, hfirst.language_eq, ih]

/-- One language without a catalog is enough for a report, wherever it stands. -/
theorem exists_report_of_broken (hlanguage : language ∈ languages)
    (h : Broken w config language) :
    ∃ report, loadCatalogs Disk.workspace config languages w = (.error report, w) := by
  refine (loadCatalogs_eq_or w config languages).resolve_left ?_
  rintro ⟨catalogs, -, hloads⟩
  obtain ⟨earlier, later, rfl⟩ := List.append_of_mem hlanguage
  obtain ⟨-, catalog, -, -, hcatalog, -⟩ := exists_loads_of_append hloads
  exact h.not_loads hcatalog

end Catalogs

/-! ### Files -/

/-- The files that a configuration writes: a module for each language, and the provider. -/
def Config.outputPaths (config : Config) : List Text :=
  config.languages.map config.outputPath ++ config.providerPath.toList

/-- The locations of files, with what is written there. -/
def spots (w : Workspace) (files : List (Text × Text)) : List (Location × Text) :=
  files.map fun file => (w.place file.1, file.2)

section Files

variable {w : Workspace} {config : Config} {catalogs : List Catalog}
  {files : List (Text × Text)}

theorem paths_outputFiles (h : List.Forall₂ (Loads w config) config.languages catalogs) :
    (outputFiles config catalogs).map Prod.fst = config.outputPaths := by
  simp only [outputFiles, Config.outputPaths, List.map_append, List.map_map,
    ← map_language_eq h]
  simp [Function.comp_def]

/-- What every single file that is written keeps is kept when all are written, also if this fails on
the way. -/
theorem writeFiles_invariant {P : Workspace → Prop} (hw : P w)
    (hstep : ∀ file ∈ files, ∀ w written, P w → w.write file.1 file.2 = .ok written → P written) :
    P (writeFiles Disk.workspace files w).2 := by
  induction files generalizing w with
  | nil => exact hw
  | cons file files ih =>
    obtain ⟨path, content⟩ := file
    cases hwrite : w.write path content with
    | error fault =>
      have hfails : Disk.workspace.write path content w = (.error fault, w) := by
        simp [Disk.workspace, hwrite]
      simp only [writeFiles, bind_apply, hfails, pure_apply]
      exact hw
    | ok written =>
      have hwrites : Disk.workspace.write path content w = (.ok (), written) := by
        simp [Disk.workspace, hwrite]
      simp only [writeFiles, bind_apply, hwrites, pure_apply]
      refine ih ?_ fun file hfile => hstep file (List.mem_cons_of_mem _ hfile)
      exact hstep (path, content) List.mem_cons_self w written hw hwrite

/-- To write files changes no more than their paths. -/
theorem touches_writeFiles (w : Workspace) (files : List (Text × Text)) :
    w.Touches [] (files.map Prod.fst) (writeFiles Disk.workspace files w).2 := by
  refine writeFiles_invariant (.refl w) fun file hfile w' written htouches hwrite => ?_
  refine htouches.trans ((Workspace.touches_of_write hwrite).mono (List.Subset.refl _) ?_)
  exact List.cons_subset.mpr ⟨List.mem_map_of_mem hfile, List.nil_subset _⟩

/-- Writing changes no more than the output directory and the paths of the output. -/
theorem touches_writeOutputs (w : Workspace) (config : Config) (catalogs : List Catalog) :
    w.Touches (Path.ancestors config.outDir) ((outputFiles config catalogs).map Prod.fst)
      (writeOutputs Disk.workspace config catalogs w).2 := by
  have hmade := (Workspace.touches_makeAll w (Path.ancestors config.outDir)).mono
    (List.Subset.refl _) (List.nil_subset ((outputFiles config catalogs).map Prod.fst))
  rcases hmake : w.makeAll (Path.ancestors config.outDir) with ⟨made, result⟩
  have hstep : Disk.workspace.makeDirectories config.outDir w = (result, made) := by
    simp [Disk.workspace, Workspace.makeDirectories, hmake]
  rw [hmake] at hmade
  cases result with
  | error fault =>
    simp only [writeOutputs, bind_apply, hstep, pure_apply]
    exact hmade
  | ok _ =>
    simp only [writeOutputs, bind_apply, hstep]
    exact hmade.trans ((touches_writeFiles made _).mono (List.nil_subset _) (List.Subset.refl _))

/-- Files that can be written are put at their locations. -/
theorem writeFiles_of_writable (h : ∀ file ∈ files, w.Writable file.1) :
    writeFiles Disk.workspace files w =
      ((files.map fun file => .wroteFile file.1 (Text.width file.2), .ok ()),
        w.putTexts (spots w files)) := by
  induction files generalizing w with
  | nil => rfl
  | cons file files ih =>
    obtain ⟨path, content⟩ := file
    obtain ⟨hfile, hfiles⟩ := List.forall_mem_cons.mp h
    have hwrite := hfile.write content
    have hsame := Workspace.sameDirectories_of_write hwrite
    have hstep : Disk.workspace.write path content w =
        (.ok (), w.put (w.place path) (.file (.text content))) := by
      simp [Disk.workspace, hwrite]
    have hrest := ih fun file hmem => hsame.writable (hfiles file hmem)
    -- A file that is written does not move the places of the others.
    have hspots : spots (w.put (w.place path) (.file (.text content))) files = spots w files :=
      List.map_congr_left fun file hmem => by rw [hsame.place (hfiles file hmem)]
    simp only [writeFiles, bind_apply, hstep, hrest, hspots, pure_apply]
    rfl

/-- What the tree is after all output was written. -/
theorem writeOutputs_of_ok
    (h : (writeOutputs Disk.workspace config catalogs w).1.2 = .ok ()) :
    writeOutputs Disk.workspace config catalogs w =
      (((outputFiles config catalogs).map fun file => .wroteFile file.1 (Text.width file.2),
          .ok ()),
        (w.makeDirectories config.outDir).1.putTexts
          (spots (w.makeDirectories config.outDir).1 (outputFiles config catalogs))) := by
  obtain ⟨hmade, hfiles⟩ := writeOutputs_ok_iff.mp h
  have hstep : Disk.workspace.makeDirectories config.outDir w =
      (.ok (), (w.makeDirectories config.outDir).1) := by
    rw [← hmade]
    rfl
  simp only [writeOutputs, bind_apply, hstep]
  exact writeFiles_of_writable hfiles

/-- The path of a file that was written leads to it. -/
theorem resolve_putTexts_spots (h : ∀ file ∈ files, w.Writable file.1) {file : Text × Text}
    (hfile : file ∈ files) :
    (w.putTexts (spots w files)).resolve file.1 = .ok (w.place file.1) := by
  have htouches := touches_writeFiles w files
  rw [writeFiles_of_writable h] at htouches
  have htarget := (h file hfile).target_eq
  have hlists : (w.tree.putTexts (spots w files)).Lists (w.place file.1) :=
    Tree.lists_putTexts (List.mem_map_of_mem hfile)
  rw [Tree.Lists, Tree.lookup_objects (Workspace.ne_nil_of_target htarget)] at hlists
  obtain ⟨object, hobject⟩ := Option.isSome_iff_exists.mp hlists
  exact Workspace.resolve_of_target htarget rfl htouches.grows hobject (by simp)

end Files

/-! ### Runs -/

section Runs

variable {w : Workspace} {clock : StateM Workspace Nat} {arguments : List Text} {options : Options}
  {config : Config} {catalogs : List Catalog} {report : Report} {summary : Summary}

theorem runWith_of_report
    (h : loadCatalogs Disk.workspace config config.languages w = (.error report, w)) :
    (runWith Disk.workspace clock options config w).1.result = .error report ∧
      (runWith Disk.workspace clock options config w).2 = w := by
  simp only [runWith, bind_apply, h]
  exact ⟨rfl, rfl⟩

/-- A run that only checks changes no file. -/
theorem snd_runWith_of_check (hclock : ReadsOnly clock) (hcheck : options.check = true) :
    (runWith Disk.workspace clock options config w).2 = w := by
  rcases loadCatalogs_eq_or w config config.languages with ⟨catalogs, hload, -⟩ | ⟨report, hload⟩
  · simp only [runWith, bind_apply, hload, hcheck, if_true]
    exact hclock w
  · exact (runWith_of_report hload).2

/-- Any other run only writes its output. -/
theorem snd_runWith_of_loads (hclock : ReadsOnly clock) (hcheck : options.check = false)
    (h : List.Forall₂ (Loads w config) config.languages catalogs) :
    (runWith Disk.workspace clock options config w).2 =
      (writeOutputs Disk.workspace config catalogs w).2 := by
  have hload := loadCatalogs_of_loads h
  rcases hwrite : writeOutputs Disk.workspace config catalogs w with ⟨⟨log, result⟩, after⟩
  simp only [runWith, bind_apply, hload, hcheck, Bool.false_eq_true, if_false, hwrite]
  cases result with
  | error report => rfl
  | ok _ => exact hclock after

/-- A run that succeeds went through. -/
theorem exists_goesThrough
    (h : (runWith Disk.workspace clock options config w).1.result = .ok summary) :
    ∃ catalogs, GoesThrough w options config catalogs := by
  rcases loadCatalogs_eq_or w config config.languages with
    ⟨catalogs, hload, hloads⟩ | ⟨report, hload⟩
  · refine ⟨catalogs, hloads, fun hcheck => ?_⟩
    rcases hwrite : writeOutputs Disk.workspace config catalogs w with ⟨⟨log, result⟩, after⟩
    cases result with
    | error report =>
      simp only [runWith, bind_apply, hload, hcheck, Bool.false_eq_true, if_false,
        hwrite] at h
      cases h
    | ok _ => rfl
  · simp [(runWith_of_report hload).1] at h

theorem snd_run_of_load (h : (Config.load Disk.workspace options w).1 = .ok config) :
    (run Disk.workspace clock options w).2 =
      (runWith Disk.workspace clock options config w).2 := by
  have hload : Config.load Disk.workspace options w = (.ok config, w) :=
    Prod.ext h (ReadsOnly.load options w)
  simp only [run, bind_apply, hload]
  rfl

theorem run_of_report (h : (Config.load Disk.workspace options w).1 = .error report) :
    (run Disk.workspace clock options w).1.result = .error report ∧
      (run Disk.workspace clock options w).2 = w := by
  have hload : Config.load Disk.workspace options w = (.error report, w) :=
    Prod.ext h (ReadsOnly.load options w)
  simp only [run, bind_apply, hload]
  exact ⟨rfl, rfl⟩

theorem snd_execute (h : Options.parse arguments = .ok options) :
    (execute Disk.workspace clock arguments w).2 = (run Disk.workspace clock options w).2 := by
  simp only [execute, h]
  rfl

/-- Arguments that do not ask for a run change no file. -/
theorem snd_execute_of_error {error : ArgumentError} (h : Options.parse arguments = .error error) :
    (execute Disk.workspace clock arguments w).2 = w := by
  cases error <;> simp only [execute, h] <;> rfl

/-- What is written after the module of a language: the modules of later ones, and the provider. -/
theorem exists_outputFiles_split (config : Config) (before : List Catalog) (catalog : Catalog)
    (rest : List Catalog) :
    ∃ first second, outputFiles config (before ++ catalog :: rest) =
        first ++ (config.outputPath catalog.language, catalog.store.moduleText) :: second ∧
      ∀ file ∈ second,
        (∃ other ∈ rest, file = (config.outputPath other.language, other.store.moduleText)) ∨
          file.1 ∈ config.providerPath := by
  rw [outputFiles, List.map_append, List.map_cons, List.append_assoc, List.cons_append]
  refine ⟨_, _, rfl, fun file hfile => ?_⟩
  rcases List.mem_append.mp hfile with hmodule | hprovider
  · obtain ⟨other, hother, rfl⟩ := List.mem_map.mp hmodule
    exact .inl ⟨other, hother, rfl⟩
  · obtain ⟨path, hpath, rfl⟩ := List.mem_map.mp hprovider
    exact .inr (Option.mem_toList.mp hpath)

/-- The module of a language holds the patterns of its catalog, unless the provider or a later
language with another catalog is written to the same file. -/
theorem exists_module (hloads : List.Forall₂ (Loads w config) config.languages catalogs)
    (hwrites : (writeOutputs Disk.workspace config catalogs w).1.2 = .ok ())
    {after : Workspace} (hafter : (writeOutputs Disk.workspace config catalogs w).2 = after)
    {earlier later : List Text} {language : Text}
    (hlanguages : config.languages = earlier ++ language :: later) :
    ∃ location, after.resolve (config.outputPath language) = .ok location ∧
      ((∀ path ∈ config.providerPath, after.resolve path ≠ .ok location) →
        (∀ other ∈ later, after.resolve (config.outputPath other) = .ok location →
          w.resolve (config.inputPath other) = w.resolve (config.inputPath language)) →
        ∃ catalog, Loads w config language catalog ∧
          after.tree.get? location = some (.file (.text catalog.store.moduleText))) := by
  have hfiles := (writeOutputs_ok_iff.mp hwrites).2
  rw [writeOutputs_of_ok hwrites] at hafter
  dsimp only at hafter
  generalize (w.makeDirectories config.outDir).1 = made at hfiles hafter
  subst hafter
  rw [hlanguages] at hloads
  obtain ⟨before, catalog, rest, rfl, hcatalog, hrest⟩ := exists_loads_of_append hloads
  obtain rfl := hcatalog.language_eq
  have hplace {file : Text × Text}
      (hfile : file ∈ outputFiles config (before ++ catalog :: rest)) :=
    resolve_putTexts_spots hfiles hfile
  have hown : (config.outputPath catalog.language, catalog.store.moduleText) ∈
      outputFiles config (before ++ catalog :: rest) := by simp [outputFiles]
  refine ⟨made.place (config.outputPath catalog.language), hplace hown, fun hprovider hlater => ?_⟩
  refine ⟨catalog, hcatalog, ?_⟩
  obtain ⟨first, second, hsplit, hsecond⟩ := exists_outputFiles_split config before catalog rest
  have hspots : spots made (outputFiles config (before ++ catalog :: rest)) =
      spots made first ++ (made.place (config.outputPath catalog.language),
        catalog.store.moduleText) :: spots made second := by
    simp [hsplit, spots]
  have hroot := Workspace.ne_nil_of_target (hfiles _ hown).target_eq
  rw [Workspace.putTexts, hspots]
  refine Tree.get?_putTexts_of_last hroot fun spot hspot hsame => ?_
  -- What is written later to the same file is the module of a language with the same catalog.
  obtain ⟨file, hfile, rfl⟩ := List.mem_map.mp hspot
  dsimp only at hsame ⊢
  have hleads := hplace (by rw [hsplit]; simp [hfile] : file ∈ _)
  rw [hsame] at hleads
  rcases hsecond file hfile with ⟨other, hother, rfl⟩ | hpath
  · obtain ⟨hmem, hloads'⟩ := loads_of_mem hrest hother
    rw [hcatalog.store_eq hloads' (hlater other.language hmem hleads)]
  · exact absurd hleads (hprovider file.1 hpath)

/-- A run goes through if its catalogs load and its files can be written. -/
theorem goesThrough_of_writable (hloads : List.Forall₂ (Loads w config) config.languages catalogs)
    (hmade : (w.makeDirectories config.outDir).2 = .ok ())
    (h : ∀ path ∈ config.outputPaths, (w.makeDirectories config.outDir).1.Writable path) :
    GoesThrough w options config catalogs := by
  refine ⟨hloads, fun _ => writeOutputs_ok_iff.mpr ⟨hmade, fun file hfile => h file.1 ?_⟩⟩
  rw [← paths_outputFiles hloads]
  exact List.mem_map_of_mem hfile

/-- A run changes no more than the output directory and the files of its configuration. -/
theorem touches_runWith (hclock : ReadsOnly clock) :
    w.Touches (Path.ancestors config.outDir) config.outputPaths
      (runWith Disk.workspace clock options config w).2 := by
  cases hcheck : options.check with
  | true =>
    rw [snd_runWith_of_check hclock hcheck]
    exact .refl w
  | false =>
    rcases loadCatalogs_eq_or w config config.languages with ⟨catalogs, -, hloads⟩ | ⟨report, hload⟩
    · rw [snd_runWith_of_loads hclock hcheck hloads, ← paths_outputFiles hloads]
      exact touches_writeOutputs w config catalogs
    · rw [(runWith_of_report hload).2]
      exact .refl w

end Runs

/-! ### Two languages with one module -/

/-- The text of a catalog without keys. -/
def bareText : Text := "\x7b\x7d"

/-- The text of a catalog with one key. -/
def keyText : Text := "\x7b\"x\":\"\"\x7d"

theorem read_bareText : Json.read bareText = .ok (.object []) := by
  have htext : bareText = Json.render (.object []) := by decide
  rw [htext, Json.read_render (by simp [Json.depthLimit, Json.Printable])]

theorem read_keyText : Json.read keyText = .ok (.object [("x", .string [])]) := by
  have htext : keyText = Json.render (.object [("x", .string [])]) := by decide
  rw [htext, Json.read_render (by simp [Json.depthLimit, Json.Printable])]

/-- The store of a catalog with one key. -/
def keyStore : Catalog.Store := Catalog.Store.empty.insert (.compile "x" [])

/-- Two directories with a catalog in each. -/
def twoDirectories : Workspace where
  tree := ⟨[(["a"], .directory), (["a", "en.json"], .file (.text keyText)),
    (["b"], .directory), (["b", "en.json"], .file (.text bareText))]⟩
  directory := []

/-- Two languages, the second of which leads from one directory to the other. -/
def crossingArguments : List Text := ["-db", "-oa", "-len", "-l../a/en", "--no-provider"]

def crossingOptions : Options :=
  { dir := "b", outDir := some "a", langs := ["en", "../a/en"], noProvider := true }

def crossingConfig : Config where
  dir := "b"
  outDir := "a"
  languages := ["en", "../a/en"]
  importRoot := Provider.defaultImportRoot
  providerFile := none
  settingsPath := none

theorem load_crossing :
    (Config.load Disk.workspace crossingOptions twoDirectories).1 = .ok crossingConfig := rfl

theorem loads_crossing_first : Loads twoDirectories crossingConfig "en" ⟨"en", .empty⟩ :=
  ⟨bareText, rfl, Catalog.load_eq_ok_iff.mpr ⟨_, read_bareText, rfl, rfl⟩⟩

theorem loads_crossing_second :
    Loads twoDirectories crossingConfig "../a/en" ⟨"../a/en", keyStore⟩ :=
  ⟨keyText, rfl, Catalog.load_eq_ok_iff.mpr ⟨_, read_keyText, rfl, rfl⟩⟩

/-- Both modules can be written. -/
theorem writable_crossing {path : Text} (hpath : path ∈ crossingConfig.outputPaths) :
    twoDirectories.Writable path := by
  have hpaths : crossingConfig.outputPaths = (["a/en.ts", "a/../a/en.ts"] : List Text) := rfl
  rw [hpaths, List.mem_pair] at hpath
  rcases hpath with rfl | rfl <;> exact ⟨["a", "en.ts"], rfl, by decide⟩

theorem goesThrough_crossing :
    GoesThrough twoDirectories crossingOptions crossingConfig
      [⟨"en", .empty⟩, ⟨"../a/en", keyStore⟩] :=
  goesThrough_of_writable (.cons loads_crossing_first (.cons loads_crossing_second .nil)) rfl
    fun _ hpath => writable_crossing hpath

/-- After a run with both languages the module holds the second one. -/
theorem read_crossing :
    (execute Disk.workspace (pure 0) crossingArguments twoDirectories).2.read "a/en.ts" =
      .ok keyStore.moduleText := by
  have hthrough := goesThrough_crossing
  have hparse : Options.parse crossingArguments = .ok crossingOptions := rfl
  rw [snd_execute hparse, snd_run_of_load load_crossing,
    snd_runWith_of_loads (.pure 0) rfl hthrough.loads, writeOutputs_of_ok (hthrough.writes rfl)]
  rfl

/-! ### The command -/

/-- Arguments that ask for no run change nothing. A run that only checks, whose configuration cannot
be loaded, or with one language whose catalog cannot be made, changes nothing either. Any other run
changes no more than the output directory and the files of its configuration. If it succeeds, the
module of a language holds what is made of its catalog as it was before, unless the same file is
written later on: as the provider, or as the module of a language with another catalog. -/
theorem execute_changes {clock : StateM Workspace Nat} (hclock : ReadsOnly clock)
    {arguments : List Text} {w after : Workspace} {execution : Execution}
    (h : execute Disk.workspace clock arguments w = (execution, after)) :
    (∀ error, Options.parse arguments = .error error → after = w) ∧
      ∀ options, Options.parse arguments = .ok options → options.watch = false →
        (options.check = true ∨
            (∃ report, (Config.load Disk.workspace options w).1 = .error report) ∨
            (∃ config, (Config.load Disk.workspace options w).1 = .ok config ∧
              ∃ language ∈ config.languages, Broken w config language) →
          after = w) ∧
        ∀ config, (Config.load Disk.workspace options w).1 = .ok config →
          w.Touches (Path.ancestors config.outDir) config.outputPaths after ∧
          ∀ summary, options.check = false →
            (run Disk.workspace clock options w).1.result = .ok summary →
            ∀ earlier language later, config.languages = earlier ++ language :: later →
              ∃ location, after.resolve (config.outputPath language) = .ok location ∧
                ((∀ path ∈ config.providerPath, after.resolve path ≠ .ok location) →
                  (∀ other ∈ later, after.resolve (config.outputPath other) = .ok location →
                    w.resolve (config.inputPath other) = w.resolve (config.inputPath language)) →
                  ∃ catalog, Loads w config language catalog ∧
                    after.tree.get? location =
                      some (.file (.text catalog.store.moduleText))) := by
  obtain rfl : (execute Disk.workspace clock arguments w).2 = after := congrArg Prod.snd h
  refine ⟨fun error herror => snd_execute_of_error herror, fun options hparse _ => ?_⟩
  rw [snd_execute hparse]
  constructor
  · rintro (hcheck | ⟨report, hreport⟩ | ⟨config, hload, language, hlanguage, hbroken⟩)
    · cases hload : (Config.load Disk.workspace options w).1 with
      | error report => exact (run_of_report hload).2
      | ok config => rw [snd_run_of_load hload, snd_runWith_of_check hclock hcheck]
    · exact (run_of_report hreport).2
    · obtain ⟨report, hreport⟩ := exists_report_of_broken hlanguage hbroken
      rw [snd_run_of_load hload, (runWith_of_report hreport).2]
  · intro config hload
    rw [snd_run_of_load hload]
    refine ⟨touches_runWith hclock, ?_⟩
    intro summary hcheck hsummary earlier language later hlanguages
    rw [result_run hload clock] at hsummary
    obtain ⟨catalogs, hthrough⟩ := exists_goesThrough hsummary
    rw [snd_runWith_of_loads hclock hcheck hthrough.loads]
    exact exists_module hthrough.loads (hthrough.writes hcheck) rfl hlanguages

/-- Of two languages that share a module, the second one is safe from the first one. -/
theorem execute_changes_crossing :
    ∃ (execution : Execution) (after : Workspace),
      execute Disk.workspace (pure 0) crossingArguments twoDirectories = (execution, after) ∧
        twoDirectories.Touches ["a"] ["a/en.ts", "a/../a/en.ts"] after ∧
        ∃ location, after.resolve "a/../a/en.ts" = .ok location ∧
          ∃ catalog, Loads twoDirectories crossingConfig "../a/en" catalog ∧
            after.tree.get? location = some (.file (.text catalog.store.moduleText)) := by
  obtain ⟨_, _, hresult, -⟩ := goesThrough_crossing.exists_summary (pure 0)
  rw [← result_run load_crossing (pure 0)] at hresult
  obtain ⟨-, hruns⟩ := execute_changes (.pure 0)
    (rfl : execute Disk.workspace (pure 0) crossingArguments twoDirectories = _)
  obtain ⟨htouches, hmodules⟩ := (hruns crossingOptions rfl rfl).2 crossingConfig load_crossing
  obtain ⟨location, hleads, hmodule⟩ := hmodules _ rfl hresult ["en"] "../a/en" [] rfl
  refine ⟨_, _, rfl, htouches, location, hleads, hmodule ?_ ?_⟩
  · simp [crossingConfig, Config.providerPath]
  · simp

/-- Two languages can share a module and not a catalog. A run succeeds all the same, and the module
does not hold what is made of the catalog of the first one. -/
theorem later_module_stays :
    ∃ (w : Workspace) (arguments : List Text) (options : Options) (config : Config)
      (summary : Summary) (language : Text) (catalog : Catalog),
      Options.parse arguments = .ok options ∧ options.watch = false ∧ options.check = false ∧
        (Config.load Disk.workspace options w).1 = .ok config ∧ config.providerPath = none ∧
        (run Disk.workspace (pure 0) options w).1.result = .ok summary ∧
        language ∈ config.languages ∧ Loads w config language catalog ∧
        (execute Disk.workspace (pure 0) arguments w).2.read (config.outputPath language) ≠
          .ok catalog.store.moduleText := by
  obtain ⟨_, _, hresult, -⟩ := goesThrough_crossing.exists_summary (pure 0)
  rw [← result_run load_crossing (pure 0)] at hresult
  refine ⟨twoDirectories, crossingArguments, crossingOptions, crossingConfig, _, "en",
    ⟨"en", .empty⟩, rfl, rfl, rfl, rfl, rfl, hresult, List.mem_cons_self, loads_crossing_first, ?_⟩
  intro hread
  have htexts := Except.ok.inj (read_crossing.symm.trans hread)
  exact absurd (congrArg (·[57]?) htexts) (by decide)

end Command

end Phrasebook
