import Phrasebook.Command.Run
import Phrasebook.Proofs.Files.Writing
import Mathlib.Data.List.Forall2
import Mathlib.Data.List.Perm.Basic

/-!
# Runs that go through

A run on a workspace first reads and then writes. It goes through if all catalogs load and all files
are written, and neither depends on the order of the languages.
-/

namespace Phrasebook.Command

open Files

/-! ### Reading -/

theorem bind_apply {α β : Type} (action : StateM Workspace α) (next : α → StateM Workspace β)
    (w : Workspace) : (action >>= next) w = next (action w).1 (action w).2 := rfl

theorem pure_apply {α : Type} (a : α) (w : Workspace) :
    (Pure.pure a : StateM Workspace α) w = (a, w) := rfl

/-- An action leaves the workspace as it is. -/
def ReadsOnly {α : Type} (action : StateM Workspace α) : Prop := ∀ w, (action w).2 = w

namespace ReadsOnly

variable {α β : Type}

theorem pure (a : α) : ReadsOnly (Pure.pure a : StateM Workspace α) := fun _ => rfl

theorem bind {action : StateM Workspace α} {next : α → StateM Workspace β}
    (haction : ReadsOnly action) (hnext : ∀ a, ReadsOnly (next a)) : ReadsOnly (action >>= next) :=
  fun w => (hnext _ _).trans (haction w)

theorem findSettings (options : Options) :
    ReadsOnly (Config.findSettings Disk.workspace options) := by
  rw [Config.findSettings]
  cases options.config with
  | some path => exact .pure _
  | none => exact .bind (fun _ => rfl) fun _ => .pure _

theorem loadSettings (path : Option Text) :
    ReadsOnly (Config.loadSettings Disk.workspace path) := by
  cases path with
  | none => exact .pure _
  | some path =>
    refine .bind (fun _ => rfl) fun result => ?_
    cases result with
    | error fault => exact .pure _
    | ok text =>
      dsimp only
      cases Settings.read text <;> exact .pure _

theorem findLanguages (options : Options) (path : Option Text) (settings : Settings) :
    ReadsOnly (Config.findLanguages Disk.workspace options path settings) := by
  rw [Config.findLanguages]
  split_ifs
  · exact .pure _
  · exact .pure _
  · refine .bind (fun _ => rfl) fun result => ?_
    cases result <;> exact .pure _

/-- To load a configuration changes no file. -/
theorem load (options : Options) : ReadsOnly (Config.load Disk.workspace options) := by
  refine .bind (.findSettings options) fun path => .bind (.loadSettings path) fun result => ?_
  cases result with
  | error report => exact .pure _
  | ok settings =>
    refine .bind (.findLanguages options path settings) fun result => ?_
    cases result <;> exact .pure _

end ReadsOnly

/-- A language has a catalog in a workspace: its file can be read, and the catalog be made. -/
def Loads (w : Workspace) (config : Config) (language : Text) (catalog : Catalog) : Prop :=
  ∃ text, w.read (config.inputPath language) = .ok text ∧
    (Catalog.load language (config.inputPath language) text).result = .ok catalog

/-- The catalog of a language in a workspace, or why it cannot be made. -/
def catalogOf (w : Workspace) (config : Config) (language : Text) : Except Catalog.Error Catalog :=
  match w.read (config.inputPath language) with
  | .error fault => .error (.unreadable (config.inputPath language) fault)
  | .ok text => (Catalog.load language (config.inputPath language) text).result

section Catalogs

variable {w : Workspace} {config : Config} {language : Text} {languages : List Text}
  {catalog : Catalog} {catalogs : List Catalog}

theorem catalogOf_eq_ok_iff :
    catalogOf w config language = .ok catalog ↔ Loads w config language catalog := by
  rw [catalogOf, Loads]
  cases w.read (config.inputPath language) <;> simp

/-- Catalogs are loaded one after the other. The first one that cannot be made is reported. -/
theorem loadCatalogs_cons (w : Workspace) (config : Config) (language : Text)
    (languages : List Text) :
    loadCatalogs Disk.workspace config (language :: languages) w =
      match catalogOf w config language with
      | .error error => (.error (catalogReport language error), w)
      | .ok catalog =>
        ((loadCatalogs Disk.workspace config languages w).1.map (catalog :: ·),
          (loadCatalogs Disk.workspace config languages w).2) := by
  have hread : Disk.workspace.read (config.inputPath language) w =
      (w.read (config.inputPath language), w) := rfl
  rw [loadCatalogs, catalogOf, bind_apply, hread]
  dsimp only
  cases w.read (config.inputPath language) with
  | error fault => rfl
  | ok text =>
    dsimp only
    rw [bind_apply]
    cases (Catalog.load language (config.inputPath language) text).result with
    | error error => rfl
    | ok catalog =>
      change (loadCatalogs Disk.workspace config languages >>= _) w = _
      rw [bind_apply]
      cases (loadCatalogs Disk.workspace config languages w).1 <;> rfl

/-- Catalogs are loaded in the order of their languages. -/
theorem loadCatalogs_of_loads (h : List.Forall₂ (Loads w config) languages catalogs) :
    loadCatalogs Disk.workspace config languages w = (.ok catalogs, w) := by
  induction h with
  | nil => rfl
  | cons hfirst _ ih =>
    rw [loadCatalogs_cons, catalogOf_eq_ok_iff.mpr hfirst, ih]
    rfl

end Catalogs

/-! ### Writing -/

/-- Files are written one after the other if and only if each of them can be written. -/
theorem writeFiles_ok_iff {w : Workspace} {files : List (Text × Text)} :
    (writeFiles Disk.workspace files w).1.2 = .ok () ↔ ∀ file ∈ files, w.Writable file.1 := by
  induction files generalizing w with
  | nil => simp [writeFiles, pure_apply]
  | cons file files ih =>
    obtain ⟨path, content⟩ := file
    rw [List.forall_mem_cons]
    cases hwrite : w.write path content with
    | error fault =>
      have hstep : Disk.workspace.write path content w = (.error fault, w) := by
        simp [Disk.workspace, hwrite]
      have hrefused : ¬ w.Writable path := by
        rw [← @Workspace.exists_write_iff w path content, hwrite]
        simp
      simp [writeFiles, bind_apply, hstep, pure_apply, hrefused]
    | ok written =>
      have hstep : Disk.workspace.write path content w = (.ok (), written) := by
        simp [Disk.workspace, hwrite]
      have hwritable : w.Writable path := Workspace.exists_write_iff.mp ⟨written, hwrite⟩
      have hsame := Workspace.sameDirectories_of_write hwrite
      -- The files after the first one meet the directories that were there at the start.
      have hrest : (∀ file ∈ files, written.Writable file.1) ↔ ∀ file ∈ files, w.Writable file.1 :=
        forall₂_congr fun _ _ => ⟨hsame.symm.writable, hsame.writable⟩
      rw [← hrest, ← ih]
      simp only [writeFiles, bind_apply, hstep, pure_apply, hwritable, true_and]

/-- All output is written if and only if the directory can be made and then each file be written. -/
theorem writeOutputs_ok_iff {w : Workspace} {config : Config} {catalogs : List Catalog} :
    (writeOutputs Disk.workspace config catalogs w).1.2 = .ok () ↔
      (w.makeDirectories config.outDir).2 = .ok () ∧
        ∀ file ∈ outputFiles config catalogs,
          (w.makeDirectories config.outDir).1.Writable file.1 := by
  rw [← writeFiles_ok_iff]
  simp only [writeOutputs, bind_apply, Disk.workspace]
  cases (w.makeDirectories config.outDir).2 with
  | error fault => simp [pure_apply]
  | ok _ => simp

/-- Catalogs in another order are written to the same paths. -/
theorem mem_paths_outputFiles {config : Config} {catalogs catalogs' : List Catalog}
    (h : catalogs'.Perm catalogs) (languages : List Text) {path : Text} :
    path ∈ (outputFiles { config with languages } catalogs').map Prod.fst ↔
      path ∈ (outputFiles config catalogs).map Prod.fst := by
  simp [outputFiles, Config.outputPath, Config.providerPath, h.mem_iff]

/-! ### Runs -/

/-- All catalogs of a configuration load, and all files are written unless a run only checks. -/
structure GoesThrough (w : Workspace) (options : Options) (config : Config)
    (catalogs : List Catalog) : Prop where
  loads : List.Forall₂ (Loads w config) config.languages catalogs
  writes : options.check = false →
    (writeOutputs Disk.workspace config catalogs w).1.2 = .ok ()

namespace GoesThrough

variable {w : Workspace} {options : Options} {config : Config} {catalogs : List Catalog}

/-- A run that goes through ends with the summary of its catalogs. -/
theorem exists_summary (h : GoesThrough w options config catalogs)
    (clock : StateM Workspace Nat) :
    ∃ written milliseconds, (runWith Disk.workspace clock options config w).1.result =
        .ok (summarize catalogs written milliseconds) ∧
      (runWith Disk.workspace clock options config w).1.output =
        reportOutput config options.output catalogs ++
          Output.summary options.output (summarize catalogs written milliseconds) := by
  have hload := loadCatalogs_of_loads h.loads
  cases hcheck : options.check with
  | true =>
    simp only [runWith, bind_apply, hload, hcheck, if_true, pure_apply]
    exact ⟨_, _, rfl, rfl⟩
  | false =>
    rcases hrun : writeOutputs Disk.workspace config catalogs w with ⟨⟨log, result⟩, after⟩
    obtain rfl : result = .ok () := by simpa [hrun] using h.writes hcheck
    simp only [runWith, bind_apply, hload, hcheck, Bool.false_eq_true, if_false, hrun]
    exact ⟨_, _, rfl, rfl⟩

/-- A run goes through with the same catalogs in another order. -/
theorem of_perm (h : GoesThrough w options config catalogs) {languages : List Text}
    {catalogs' : List Catalog} (hperm : catalogs'.Perm catalogs)
    (hloads : List.Forall₂ (Loads w config) languages catalogs') :
    GoesThrough w options { config with languages } catalogs' := by
  refine ⟨hloads, fun hcheck => ?_⟩
  obtain ⟨hdirectory, hfiles⟩ := writeOutputs_ok_iff.mp (h.writes hcheck)
  refine writeOutputs_ok_iff.mpr ⟨hdirectory, fun file hfile => ?_⟩
  have hpath := (mem_paths_outputFiles hperm languages).mp (List.mem_map_of_mem hfile)
  obtain ⟨old, hold, hsame⟩ := List.mem_map.mp hpath
  rw [← hsame]
  exact hfiles old hold

/-- A run still goes through with its languages in another order. -/
theorem exists_perm (h : GoesThrough w options config catalogs) {languages : List Text}
    (hperm : languages.Perm config.languages) :
    ∃ catalogs', catalogs'.Perm catalogs ∧
      GoesThrough w options { config with languages } catalogs' := by
  obtain ⟨catalogs', hloads, hcatalogs⟩ := List.perm_comp_forall₂ hperm h.loads
  exact ⟨catalogs', hcatalogs, h.of_perm hcatalogs hloads⟩

end GoesThrough

/-- A run with options is one with their configuration. -/
theorem result_run {w : Workspace} {options : Options} {config : Config}
    (h : (Config.load Disk.workspace options w).1 = .ok config)
    (clock : StateM Workspace Nat) :
    (run Disk.workspace clock options w).1.result =
      (runWith Disk.workspace clock options config w).1.result := by
  have hload : Config.load Disk.workspace options w = (.ok config, w) :=
    Prod.ext h (ReadsOnly.load options w)
  simp only [run, bind_apply, hload]
  rfl

end Phrasebook.Command
