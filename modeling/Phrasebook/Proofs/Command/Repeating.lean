import Phrasebook.Proofs.Command.Effects
import Phrasebook.Proofs.Files.Names
import Mathlib.Data.List.Forall2

/-!
# Runs that are repeated

A run writes by default into the very directory that it searches for catalogs and for its settings.
All the same a second run reads what the first one read, since it is the last name of a file that
tells what it is: no module is called as a catalog or as the settings are. So the second run has the
same configuration, prints the same and writes the same again.

The provider can have any name, and directories that are made can complete a path that led nowhere
before. There are two ways for these to get between two runs, which `Command.Undisturbed` excludes.

## Main definitions

* `Command.Written`: how a workspace is after the files of a configuration were written.
* `Command.Undisturbed`: what a run writes does not get in the way of what it reads.
* `Command.passed`: what a run that goes through prints and notes.

## Main results

* `Command.Written.loads`: catalogs load as before.
* `Command.Written.load`: the configuration is the same as before.
* `Command.writeOutputs_again`: to write the output again changes nothing.
* `Command.run_again`: a run that is repeated.
* `Command.repeated_run_fails`: a provider that replaces a catalog, and settings that turn up late.
-/

namespace Phrasebook.Command

open Files

/-! ### Configurations -/

section Load

variable {w : Workspace} {options : Options} {config : Config} {settings : Settings}
  {languages : List Text}

theorem fst_findSettings (w : Workspace) (options : Options) :
    (Config.findSettings Disk.workspace options w).1 =
      options.config.or
        (if w.isFile (Path.join options.dir Config.settingsFile) then
          some (Path.join options.dir Config.settingsFile) else none) := by
  rw [Config.findSettings]
  cases options.config <;> rfl

theorem loadSettings_some_eq_ok_iff {path : Text} :
    (Config.loadSettings Disk.workspace (some path) w).1 = .ok settings ↔
      ∃ text, w.read path = .ok text ∧ Settings.read text = .ok settings := by
  have hread : Disk.workspace.read path w = (w.read path, w) := rfl
  simp only [Config.loadSettings, bind_apply, hread]
  cases w.read path with
  | error fault => simp [pure_apply]
  | ok text => cases hsettings : Settings.read text <;> simp [hsettings, pure_apply]

/-- Languages come from the options, from the settings, or from the files of the directory. -/
theorem findLanguages_eq_ok_iff {path : Option Text} :
    (Config.findLanguages Disk.workspace options path settings w).1 = .ok languages ↔
      if !options.langs.isEmpty then languages = options.langs
      else if !settings.languages.isEmpty then languages = settings.languages
      else ∃ files, w.regularFiles options.dir = .ok files ∧
        languages = Config.discover path files := by
  rw [Config.findLanguages]
  split_ifs
  · simp [pure_apply, eq_comm]
  · simp [pure_apply, eq_comm]
  · have hfiles : Disk.workspace.regularFiles options.dir w = (w.regularFiles options.dir, w) := rfl
    simp only [bind_apply, hfiles]
    cases w.regularFiles options.dir <;> simp [pure_apply, eq_comm]

theorem load_eq_ok_iff :
    (Config.load Disk.workspace options w).1 = .ok config ↔
      ∃ settings languages,
        (Config.loadSettings Disk.workspace
          (Config.findSettings Disk.workspace options w).1 w).1 = .ok settings ∧
        (Config.findLanguages Disk.workspace options
          (Config.findSettings Disk.workspace options w).1 settings w).1 = .ok languages ∧
        config = Config.ofSettings options (Config.findSettings Disk.workspace options w).1 settings
          languages := by
  have hfind : Config.findSettings Disk.workspace options w =
      ((Config.findSettings Disk.workspace options w).1, w) :=
    Prod.ext rfl (ReadsOnly.findSettings options w)
  generalize (Config.findSettings Disk.workspace options w).1 = path at hfind
  have hsettings : Config.loadSettings Disk.workspace path w =
      ((Config.loadSettings Disk.workspace path w).1, w) :=
    Prod.ext rfl (ReadsOnly.loadSettings path w)
  simp only [Config.load, bind_apply, hfind]
  rw [hsettings]
  cases (Config.loadSettings Disk.workspace path w).1 with
  | error report => simp [pure_apply]
  | ok settings =>
    have hlanguages := ReadsOnly.findLanguages options path settings w
    rcases hfound : Config.findLanguages Disk.workspace options path settings w with ⟨result, w'⟩
    rw [hfound] at hlanguages
    obtain rfl : w' = w := hlanguages
    dsimp only
    simp only [bind_apply, hfound]
    cases result <;> simp [hfound, pure_apply, eq_comm]

end Load

/-! ### Names of what is read and written -/

section Names

variable {config : Config} {language path : Text}

/-- What catalogs and the usual settings file end with. -/
def catalogEnding : Text := ".json"

theorem lastField_inputPath (config : Config) (language : Text) :
    Path.lastField (config.inputPath language) =
      Path.lastField (Provider.fileStem language) ++ catalogEnding := by
  rw [Config.inputPath, Path.lastField_join]
  exact Path.lastField_append _ (by decide)

theorem suffix_lastField_inputPath (config : Config) (language : Text) :
    catalogEnding <:+ Path.lastField (config.inputPath language) := by
  rw [lastField_inputPath]
  exact List.suffix_append _ _

theorem not_suffix_lastField_outputPath (config : Config) (language : Text) :
    ¬ catalogEnding <:+ Path.lastField (config.outputPath language) := by
  rw [Config.outputPath, Path.lastField_join, Path.lastField_append _ (by decide)]
  rintro ⟨stem, hstem⟩
  have hlast := congrArg List.getLast? hstem
  rw [List.getLast?_append, List.getLast?_append] at hlast
  have hletters : 'n' = 's' := Option.some.inj hlast
  exact absurd hletters (by decide)

/-- No module has the extension of catalogs, and the provider has it only if its name says so. -/
theorem extension?_ne (hprovider : ∀ file ∈ config.providerFile, Path.extension? file ≠ some "json")
    (hpath : path ∈ config.outputPaths) (hname : Path.IsName (Path.lastField path)) :
    Path.extension? path ≠ some "json" := by
  rw [Config.outputPaths, List.mem_append] at hpath
  rcases hpath with hmodule | hpath
  · obtain ⟨language, -, rfl⟩ := List.mem_map.mp hmodule
    intro hextension
    rw [Path.extension?_eq hname] at hextension
    exact not_suffix_lastField_outputPath config language (Path.suffix_of_splitExtension hextension)
  · rw [Option.mem_toList, Config.providerPath, Option.map_eq_some_iff] at hpath
    obtain ⟨file, hfile, rfl⟩ := hpath
    rw [Path.extension?_eq hname, Path.lastField_join]
    rw [Path.lastField_join] at hname
    rw [← Path.extension?_eq hname]
    exact hprovider file hfile

theorem isName_of_suffix {field : Text} (h : catalogEnding <:+ field) : Path.IsName field := by
  apply Path.isName_of_length
  have hlength : 5 ≤ field.length := h.length_le
  omega

theorem lastField_settingsFile (directory : Text) :
    Path.lastField (Path.join directory Config.settingsFile) = Config.settingsFile := by
  rw [Path.lastField_join, Path.lastField_of_not_mem (by decide)]

theorem isName_settingsFile : Path.IsName Config.settingsFile := Path.isName_of_length (by decide)

end Names

/-! ### What a second run reads -/

/-- How a workspace is after the files of a configuration were written. -/
structure Written (config : Config) (w after : Workspace) : Prop where
  /-- Nothing else has changed. -/
  touches : w.Touches (Path.ancestors config.outDir) config.outputPaths after
  /-- Each file was written under a name. -/
  named : ∀ path ∈ config.outputPaths, Path.IsName (Path.lastField path)
  /-- Files that are new come after those that were there. -/
  names : ∀ directory, ∃ new,
    after.tree.fileNames directory = w.tree.fileNames directory ++ new ∧
      ∀ name ∈ new, ∃ path ∈ config.outputPaths, after.resolve path = .ok (directory ++ [name])

/-- What a run writes does not get in the way of what it reads. -/
structure Undisturbed (w after : Workspace) (options : Options) (config : Config) : Prop where
  /-- The provider has not the extension of catalogs. -/
  provider : ∀ file ∈ config.providerFile, Path.extension? file ≠ some "json"
  /-- The provider does not replace a catalog. -/
  catalogs : ∀ path ∈ config.providerPath, ∀ language ∈ config.languages,
    after.resolve path ≠ after.resolve (config.inputPath language)
  /-- The settings file is not written. -/
  settings : ∀ path ∈ config.settingsPath, ∀ output ∈ config.outputPaths,
    after.resolve output ≠ after.resolve path
  /-- No settings file turns up where there was nothing and where no catalog is read. -/
  directory : options.config = none →
    (∀ language ∈ config.languages, Path.isAbsolute (Provider.fileStem language) = true) →
    (∀ object, w.object options.dir ≠ .ok object) →
      after.isFile (Path.join options.dir Config.settingsFile) = false

section Written

variable {w after : Workspace} {options : Options} {config : Config} {settings : Settings}
  {language path : Text} {catalog : Catalog} {location : Location}

/-- A file that was written is called by the last field of any path that leads to it. -/
theorem Written.lastField_eq (h : Written config w after)
    (hname : Path.IsName (Path.lastField path)) (hresolve : after.resolve path = .ok location)
    {output : Text} (houtput : output ∈ config.outputPaths)
    (hsame : after.resolve output = after.resolve path) :
    Path.lastField output = Path.lastField path := by
  rw [hresolve] at hsame
  obtain ⟨directory, hlocation⟩ := Workspace.exists_eq_concat_of_resolve hname hresolve
  obtain ⟨directory', hlocation'⟩ :=
    Workspace.exists_eq_concat_of_resolve (h.named output houtput) hsame
  have hnames := (List.append_inj' (hlocation'.symm.trans hlocation) rfl).2
  rwa [List.singleton_inj] at hnames

/-- The usual settings file is not written. -/
theorem Written.settingsFile_ne (h : Written config w after)
    (hfree : Undisturbed w after options config) {directory : Text}
    (hresolve : after.resolve (Path.join directory Config.settingsFile) = .ok location) :
    ∀ output ∈ config.outputPaths,
      after.resolve output ≠ after.resolve (Path.join directory Config.settingsFile) := by
  intro output houtput hsame
  have hname := isName_settingsFile
  rw [← lastField_settingsFile directory] at hname
  have hlast := h.lastField_eq hname hresolve houtput hsame
  refine extension?_ne hfree.provider houtput (h.named output houtput) ?_
  rw [Path.extension?_eq (h.named output houtput), hlast, lastField_settingsFile]
  rfl

/-- No catalog is written: a module is not called as a catalog is, and the provider replaces
none. -/
theorem Written.inputPath_ne (h : Written config w after)
    (hfree : Undisturbed w after options config) (hlanguage : language ∈ config.languages)
    (hresolve : after.resolve (config.inputPath language) = .ok location) :
    ∀ output ∈ config.outputPaths,
      after.resolve output ≠ after.resolve (config.inputPath language) := by
  intro output houtput hsame
  have hsuffix := suffix_lastField_inputPath config language
  have hlast := h.lastField_eq (isName_of_suffix hsuffix) hresolve houtput hsame
  rw [Config.outputPaths, List.mem_append] at houtput
  rcases houtput with hmodule | hpath
  · obtain ⟨other, -, rfl⟩ := List.mem_map.mp hmodule
    rw [← hlast] at hsuffix
    exact not_suffix_lastField_outputPath config other hsuffix
  · exact hfree.catalogs output (Option.mem_toList.mp hpath) language hlanguage hsame

/-- Catalogs load as before. -/
theorem Written.loads (h : Written config w after) (hfree : Undisturbed w after options config)
    (hlanguage : language ∈ config.languages) (hloads : Loads w config language catalog) :
    Loads after config language catalog := by
  obtain ⟨text, hread, hload⟩ := hloads
  rw [Workspace.read_eq_ok_iff] at hread
  obtain ⟨location, hresolve, -⟩ := Workspace.object_eq_ok_iff.mp hread
  refine ⟨text, ?_, hload⟩
  rw [Workspace.read_eq_ok_iff]
  exact h.touches.object hread (h.inputPath_ne hfree hlanguage (h.touches.resolve hresolve))

/-- The directory of the catalogs can be looked into before the run, or at least at. If not, there
is no settings file in it after the run either. -/
theorem Undisturbed.exists_front_or (h : Undisturbed w after options config)
    (hdir : config.dir = options.dir) (hconfig : options.config = none) {catalogs : List Catalog}
    (hloads : List.Forall₂ (Loads w config) config.languages catalogs) :
    (∃ middle, w.tree.follow (w.base options.dir) (Path.front options.dir) = .ok middle ∧
        (w.tree.get? middle).isSome) ∨
      after.isFile (Path.join options.dir Config.settingsFile) = false := by
  by_cases habsolute : ∀ language ∈ config.languages,
      Path.isAbsolute (Provider.fileStem language) = true
  · by_cases hobject : ∃ object, w.object options.dir = .ok object
    · obtain ⟨object, hobject⟩ := hobject
      exact .inl (Workspace.exists_front_of_object hobject)
    · exact .inr (h.directory hconfig habsolute (not_exists.mp hobject))
  · push Not at habsolute
    obtain ⟨language, hlanguage, hrelative⟩ := habsolute
    rw [ne_eq, Bool.not_eq_true] at hrelative
    obtain ⟨earlier, later, hsplit⟩ := List.append_of_mem hlanguage
    rw [hsplit] at hloads
    obtain ⟨-, catalog, -, -, ⟨text, hread, -⟩, -⟩ := exists_loads_of_append hloads
    rw [Workspace.read_eq_ok_iff, Workspace.object_eq_ok_iff, Config.inputPath, hdir] at hread
    obtain ⟨location, hresolve, -⟩ := hread
    refine .inl (Workspace.exists_front_of_join ?_ hresolve)
    cases hstem : Provider.fileStem language with
    | nil => rfl
    | cons c rest => rwa [hstem] at hrelative

/-- A settings file in a directory that could be looked at before was there before. -/
theorem Written.settingsFile_before (h : Written config w after)
    (hfree : Undisturbed w after options config) {directory : Text} {middle : Location}
    (hfront : w.tree.follow (w.base directory) (Path.front directory) = .ok middle)
    (hmiddle : (w.tree.get? middle).isSome) {content : Content}
    (hobject : after.object (Path.join directory Config.settingsFile) = .ok (.file content)) :
    w.object (Path.join directory Config.settingsFile) = .ok (.file content) := by
  have hrelative : Path.isAbsolute Config.settingsFile = false := rfl
  have hfields : Text.fields '/' (Path.join directory Config.settingsFile) =
      Path.front directory ++ [Config.settingsFile] := by
    rw [Path.fields_join hrelative]
    rfl
  have hgrows := h.touches.grows
  rw [Workspace.object_eq_ok_iff] at hobject ⊢
  obtain ⟨location, hresolve, hthere⟩ := hobject
  have houtputs := h.settingsFile_ne hfree hresolve
  rw [hresolve] at houtputs
  obtain ⟨hpath, hfollow⟩ := Workspace.resolve_eq_ok_iff.mp hresolve
  rw [hfields, Tree.follow_append_iff, Workspace.base_join hrelative,
    Workspace.base_congr h.touches.directory] at hfollow
  obtain ⟨stop, hstop, hlast⟩ := hfollow
  obtain rfl : middle = stop := Except.ok.inj ((hgrows.follow hfront).symm.trans hstop)
  rw [Tree.follow_singleton, Tree.step_name_iff isName_settingsFile] at hlast
  obtain ⟨hdirectory, -, rfl⟩ := hlast
  have hold : w.tree.get? (middle ++ [Config.settingsFile]) = some (.file content) := by
    rw [← hthere]
    by_contra hchanged
    rcases h.touches.changed _ (Ne.symm hchanged) with
      ⟨output, houtput, hwrites⟩ | ⟨_, -, hmakes⟩
    · exact houtputs output houtput hwrites.leads
    · simp [hmakes.made] at hthere
  refine ⟨_, ?_, hold⟩
  rw [Workspace.resolve_eq_ok_iff, hfields, Tree.follow_append_iff, Workspace.base_join hrelative]
  refine ⟨hpath, middle, hfront, ?_⟩
  rw [Tree.follow_singleton, Tree.step_name_iff isName_settingsFile]
  exact ⟨hgrows.directory_of_isSome hmiddle hdirectory, by simp [hold], rfl⟩

/-- A settings file that was there is as it was. -/
theorem Written.settingsFile_after (h : Written config w after)
    (hfree : Undisturbed w after options config) {directory : Text} {object : Object}
    (hobject : w.object (Path.join directory Config.settingsFile) = .ok object) :
    after.object (Path.join directory Config.settingsFile) = .ok object := by
  obtain ⟨location, hresolve, -⟩ := Workspace.object_eq_ok_iff.mp hobject
  exact h.touches.object hobject (h.settingsFile_ne hfree (h.touches.resolve hresolve))

/-- The settings file that applies is the same as before. -/
theorem Written.findSettings (h : Written config w after)
    (hfree : Undisturbed w after options config) (hdir : config.dir = options.dir)
    {catalogs : List Catalog}
    (hloads : List.Forall₂ (Loads w config) config.languages catalogs) :
    (Config.findSettings Disk.workspace options after).1 =
      (Config.findSettings Disk.workspace options w).1 := by
  rw [fst_findSettings, fst_findSettings]
  cases hgiven : options.config with
  | some path => rfl
  | none =>
    have hkept : w.isFile (Path.join options.dir Config.settingsFile) = true →
        after.isFile (Path.join options.dir Config.settingsFile) = true := by
      rw [Workspace.isFile_iff, Workspace.isFile_iff]
      rintro ⟨content, hobject⟩
      exact ⟨content, h.settingsFile_after hfree hobject⟩
    have hnew : after.isFile (Path.join options.dir Config.settingsFile) = true →
        w.isFile (Path.join options.dir Config.settingsFile) = true := by
      rcases hfree.exists_front_or hdir hgiven hloads with ⟨middle, hfront, hmiddle⟩ | hnothing
      · rw [Workspace.isFile_iff, Workspace.isFile_iff]
        rintro ⟨content, hobject⟩
        exact ⟨content, h.settingsFile_before hfree hfront hmiddle hobject⟩
      · simp [hnothing]
    rw [Bool.eq_iff_iff.mpr ⟨hnew, hkept⟩]

theorem Written.loadSettings (h : Written config w after) {found : Option Text}
    (hfound : ∀ path ∈ found, ∀ output ∈ config.outputPaths,
      after.resolve output ≠ after.resolve path)
    (hload : (Config.loadSettings Disk.workspace found w).1 = .ok settings) :
    (Config.loadSettings Disk.workspace found after).1 = .ok settings := by
  cases found with
  | none => exact hload
  | some path =>
    rw [loadSettings_some_eq_ok_iff] at hload ⊢
    obtain ⟨text, hread, hsettings⟩ := hload
    rw [Workspace.read_eq_ok_iff] at hread
    refine ⟨text, ?_, hsettings⟩
    rw [Workspace.read_eq_ok_iff]
    exact h.touches.object hread (hfound path rfl)

/-- A file without the extension of catalogs has no language, in any directory. -/
theorem languageOf?_eq_none (settingsPath : Option Text) (directory : Text)
    (hname : Path.IsName (Path.lastField path))
    (hextension : Path.extension? path ≠ some "json") :
    Config.languageOf? settingsPath (Path.join directory (Path.lastField path)) = none := by
  have hlast :
      Path.lastField (Path.join directory (Path.lastField path)) = Path.lastField path := by
    rw [Path.lastField_join, Path.lastField_of_not_mem (Path.slash_not_mem_lastField path)]
  rw [Config.languageOf?, if_pos]
  rwa [Path.extension?_eq (by rwa [hlast]), hlast, ← Path.extension?_eq hname]

/-- The files of a directory are those that were there, and then those that were written. -/
theorem Written.regularFiles (h : Written config w after) {directory : Text} {files : List Text}
    (hfiles : w.regularFiles directory = .ok files) :
    ∃ new, after.regularFiles directory = .ok (files ++ new) ∧
      ∀ file ∈ new, ∃ path ∈ config.outputPaths,
        file = Path.join directory (Path.lastField path) := by
  rw [Workspace.regularFiles] at hfiles
  cases hresolve : w.resolve directory with
  | error fault => simp [hresolve] at hfiles
  | ok location =>
    rw [hresolve] at hfiles
    dsimp only at hfiles
    cases hobject : w.tree.get? location with
    | none => simp [hobject] at hfiles
    | some object =>
      -- What was there is still there and of the same kind. Only a directory can have new files.
      obtain ⟨object', hobject', hkind⟩ := h.touches.grows location object hobject
      rw [hobject] at hfiles
      rw [Workspace.regularFiles, h.touches.resolve hresolve]
      dsimp only
      rw [hobject']
      cases object with
      | file content =>
        cases object' with
        | directory => simp at hkind
        | file content' => exact ⟨[], by simpa using hfiles, by simp⟩
      | directory =>
        obtain rfl : object' = .directory := hkind.mpr rfl
        obtain ⟨names, hnames, hnew⟩ := h.names location
        obtain rfl := Except.ok.inj hfiles
        refine ⟨names.map (Path.join directory), ?_, fun file hfile => ?_⟩
        · rw [hnames, List.map_append]
        · obtain ⟨name, hname, rfl⟩ := List.mem_map.mp hfile
          obtain ⟨path, hpath, hleads⟩ := hnew name hname
          obtain ⟨_, hlocation⟩ :=
            Workspace.exists_eq_concat_of_resolve (h.named path hpath) hleads
          have hsame := (List.append_inj' hlocation rfl).2
          rw [List.singleton_inj] at hsame
          exact ⟨path, hpath, by rw [hsame]⟩

/-- The languages are the same as before. -/
theorem Written.findLanguages (h : Written config w after)
    (hfree : Undisturbed w after options config) {found : Option Text} {languages : List Text}
    (hlanguages : (Config.findLanguages Disk.workspace options found settings w).1 =
      .ok languages) :
    (Config.findLanguages Disk.workspace options found settings after).1 = .ok languages := by
  rw [findLanguages_eq_ok_iff] at hlanguages ⊢
  split_ifs at hlanguages ⊢
  · exact hlanguages
  · exact hlanguages
  · obtain ⟨files, hfiles, rfl⟩ := hlanguages
    obtain ⟨new, hafter, hnew⟩ := h.regularFiles hfiles
    refine ⟨_, hafter, ?_⟩
    have hnone : new.filterMap (Config.languageOf? found) = [] := by
      rw [List.filterMap_eq_nil_iff]
      intro file hfile
      obtain ⟨path, hpath, rfl⟩ := hnew file hfile
      exact languageOf?_eq_none found options.dir (h.named path hpath)
        (extension?_ne hfree.provider hpath (h.named path hpath))
    rw [Config.discover, Config.discover, List.filterMap_append, hnone, List.append_nil]

/-- The configuration is the same as before. -/
theorem Written.load (h : Written config w after) (hfree : Undisturbed w after options config)
    {catalogs : List Catalog}
    (hloads : List.Forall₂ (Loads w config) config.languages catalogs)
    (hload : (Config.load Disk.workspace options w).1 = .ok config) :
    (Config.load Disk.workspace options after).1 = .ok config := by
  rw [load_eq_ok_iff] at hload ⊢
  obtain ⟨settings, languages, hsettings, hlanguages, hconfig⟩ := hload
  have hfound := h.findSettings hfree (by rw [hconfig]; rfl) hloads
  have hpath : config.settingsPath = (Config.findSettings Disk.workspace options w).1 := by
    rw [hconfig]
    rfl
  rw [hfound]
  refine ⟨settings, languages, ?_, h.findLanguages hfree hlanguages, hconfig⟩
  exact h.loadSettings (by rw [← hpath]; exact hfree.settings) hsettings

end Written

/-! ### What a second run writes -/

section Writing

variable {w : Workspace} {config : Config} {catalogs : List Catalog}

theorem written_of_ok (hloads : List.Forall₂ (Loads w config) config.languages catalogs)
    (hwrites : (writeOutputs Disk.workspace config catalogs w).1.2 = .ok ()) :
    Written config w (writeOutputs Disk.workspace config catalogs w).2 := by
  have htouches := touches_writeOutputs w config catalogs
  have hfiles := (writeOutputs_ok_iff.mp hwrites).2
  have hnames := Workspace.fileNames_makeDirectories w config.outDir
  rw [writeOutputs_of_ok hwrites] at htouches ⊢
  rw [paths_outputFiles hloads] at htouches
  dsimp only at htouches ⊢
  generalize (w.makeDirectories config.outDir).1 = made at htouches hfiles hnames
  refine ⟨htouches, fun path hpath => ?_, fun directory => ?_⟩
  · rw [← paths_outputFiles hloads] at hpath
    obtain ⟨file, hfile, rfl⟩ := List.mem_map.mp hpath
    exact Workspace.isName_of_target (hfiles file hfile).target_eq
  · have hplaces : ∀ spot ∈ spots made (outputFiles config catalogs),
        made.tree.objects.lookup spot.1 ≠ some .directory := by
      intro spot hspot
      obtain ⟨file, hfile, rfl⟩ := List.mem_map.mp hspot
      have hwritable := hfiles file hfile
      rw [Tree.lookup_objects (Workspace.ne_nil_of_target hwritable.target_eq)]
      exact hwritable.get?_ne
    obtain ⟨new, hnew, hspots⟩ := Tree.exists_fileNames_putTexts hplaces directory
    refine ⟨new, by rw [← hnames]; exact hnew, fun name hname => ?_⟩
    obtain ⟨spot, hspot, hplace⟩ := List.mem_map.mp (hspots name hname)
    obtain ⟨file, hfile, rfl⟩ := List.mem_map.mp hspot
    refine ⟨file.1, ?_, by rw [resolve_putTexts_spots hfiles hfile, ← hplace]⟩
    rw [← paths_outputFiles hloads]
    exact List.mem_map_of_mem hfile

theorem sameDirectories_writeFiles (w : Workspace) (files : List (Text × Text)) :
    w.SameDirectories (writeFiles Disk.workspace files w).2 := by
  refine writeFiles_invariant ⟨rfl, fun _ => Iff.rfl⟩ fun _ _ _ _ hbefore hwrite => ?_
  exact hbefore.trans (Workspace.sameDirectories_of_write hwrite)

/-- To write files again changes nothing, and is noted in the same way. -/
theorem writeFiles_again {files : List (Text × Text)} (h : ∀ file ∈ files, w.Writable file.1) :
    writeFiles Disk.workspace files (writeFiles Disk.workspace files w).2 =
      writeFiles Disk.workspace files w := by
  have hsame := sameDirectories_writeFiles w files
  rw [writeFiles_of_writable h] at hsame ⊢
  dsimp only at hsame ⊢
  have hspots : spots (w.putTexts (spots w files)) files = spots w files :=
    List.map_congr_left fun file hfile => by rw [hsame.place (h file hfile)]
  rw [writeFiles_of_writable fun file hfile => hsame.writable (h file hfile), hspots]
  simp only [Workspace.putTexts, Tree.putTexts_putTexts]

/-- To write the output again changes nothing. -/
theorem writeOutputs_again
    (hwrites : (writeOutputs Disk.workspace config catalogs w).1.2 = .ok ()) :
    writeOutputs Disk.workspace config catalogs
        (writeOutputs Disk.workspace config catalogs w).2 =
      writeOutputs Disk.workspace config catalogs w := by
  obtain ⟨hmade, hfiles⟩ := writeOutputs_ok_iff.mp hwrites
  have hfirst : Disk.workspace.makeDirectories config.outDir w =
      (.ok (), (w.makeDirectories config.outDir).1) := by
    rw [← hmade]
    rfl
  have hwritten : writeOutputs Disk.workspace config catalogs w =
      writeFiles Disk.workspace (outputFiles config catalogs)
        (w.makeDirectories config.outDir).1 := by
    simp only [writeOutputs, bind_apply, hfirst]
  have htouches := touches_writeFiles (w.makeDirectories config.outDir).1
    (outputFiles config catalogs)
  rw [hwritten]
  generalize hafter : (writeFiles Disk.workspace (outputFiles config catalogs)
    (w.makeDirectories config.outDir).1).2 = after at htouches
  -- The directories are there, so the files meet what they met when they were written.
  have hsecond : Disk.workspace.makeDirectories config.outDir after = (.ok (), after) := by
    have hagain := Workspace.makeDirectories_again hmade htouches.directory htouches.grows
    simp only [Disk.workspace, hagain]
  simp only [writeOutputs, bind_apply, hsecond]
  rw [← hafter, writeFiles_again hfiles]

end Writing

/-! ### Runs -/

section Runs

variable {w after : Workspace} {time : Nat} {arguments : List Text} {options : Options}
  {config : Config} {catalogs : List Catalog} {summary : Summary}

/-- What a run that goes through prints and notes. -/
def passed (options : Options) (config : Config) (catalogs : List Catalog) (time : Nat) : Outcome :=
  let files := if options.check then [] else outputFiles config catalogs
  (conclude options (summarize catalogs files.length time)).after
    (reportOutput config options.output catalogs)
    ((if config.languages.isEmpty then [.noCatalogs config.dir] else []) ++ reportLog catalogs ++
      files.map fun file => .wroteFile file.1 (Text.width file.2))

/-- What a run that goes through prints does not depend on the workspace but for its catalogs. -/
theorem runWith_of_goesThrough (h : GoesThrough w options config catalogs) (time : Nat) :
    runWith Disk.workspace (pure time) options config w =
      (passed options config catalogs time,
        if options.check then w else (writeOutputs Disk.workspace config catalogs w).2) := by
  have hload := loadCatalogs_of_loads h.loads
  cases hcheck : options.check with
  | true =>
    simp only [runWith, bind_apply, hload, hcheck, if_true, passed, List.map_nil,
      List.append_nil]
    rfl
  | false =>
    have hwrite := writeOutputs_of_ok (h.writes hcheck)
    simp only [runWith, bind_apply, hload, hcheck, Bool.false_eq_true, if_false, hwrite,
      passed]
    rfl

theorem run_of_goesThrough (h : GoesThrough w options config catalogs)
    (hload : (Config.load Disk.workspace options w).1 = .ok config) (time : Nat) :
    run Disk.workspace (pure time) options w =
      ((passed options config catalogs time).after []
          (config.settingsPath.toList.map .loadedSettings),
        if options.check then w else (writeOutputs Disk.workspace config catalogs w).2) := by
  have hconfig : Config.load Disk.workspace options w = (.ok config, w) :=
    Prod.ext hload (ReadsOnly.load options w)
  simp only [run, bind_apply, hconfig, runWith_of_goesThrough h time]
  rfl

theorem execute_congr (h : Options.parse arguments = .ok options) {clock : StateM Workspace Nat}
    {outcome : Outcome} (hw : (run Disk.workspace clock options w).1 = outcome)
    (hafter : run Disk.workspace clock options after = (outcome, after)) :
    execute Disk.workspace clock arguments after =
      ((execute Disk.workspace clock arguments w).1, after) := by
  subst hw
  simp only [execute, h, bind_apply, hafter]
  rfl

end Runs

/-! ### A run in the directory of its catalogs -/

/-- A directory with a catalog, which is found there. -/
def ownDirectory : Workspace where
  tree := ⟨[(["en.json"], .file (.text bareText))]⟩
  directory := []

def ownConfig : Config where
  dir := "."
  outDir := "."
  languages := ["en"]
  importRoot := Provider.defaultImportRoot
  providerFile := some Provider.defaultFile
  settingsPath := none

theorem load_ownDirectory : (Config.load Disk.workspace {} ownDirectory).1 = .ok ownConfig := by
  decide +kernel

theorem goesThrough_ownDirectory : GoesThrough ownDirectory {} ownConfig [⟨"en", .empty⟩] := by
  have hloads : List.Forall₂ (Loads ownDirectory ownConfig) ownConfig.languages [⟨"en", .empty⟩] :=
    .cons ⟨bareText, rfl, Catalog.load_eq_ok_iff.mpr ⟨_, read_bareText, rfl, rfl⟩⟩ .nil
  refine goesThrough_of_writable hloads rfl fun path hpath => ?_
  have hpaths : ownConfig.outputPaths = (["./en.ts", "./TranslationContext.tsx"] : List Text) := rfl
  rw [hpaths, List.mem_pair] at hpath
  rcases hpath with rfl | rfl
  · exact ⟨["en.ts"], rfl, by decide⟩
  · exact ⟨["TranslationContext.tsx"], rfl, by decide⟩

/-- What is there after a run in the directory of its catalogs. -/
def ownAfter : Workspace :=
  ownDirectory.putTexts (spots ownDirectory (outputFiles ownConfig [⟨"en", .empty⟩]))

theorem run_ownDirectory :
    ∃ outcome summary, run Disk.workspace (pure 0) {} ownDirectory = (outcome, ownAfter) ∧
      outcome.result = .ok summary := by
  have hthrough := goesThrough_ownDirectory
  have hrun := run_of_goesThrough hthrough load_ownDirectory 0
  rw [writeOutputs_of_ok (hthrough.writes rfl)] at hrun
  exact ⟨_, _, hrun, rfl⟩

theorem undisturbed_ownDirectory : Undisturbed ownDirectory ownAfter {} ownConfig where
  provider := by decide
  catalogs := by
    have hprovider : ownAfter.resolve "./TranslationContext.tsx" =
        .ok ["TranslationContext.tsx"] := rfl
    have hcatalog : ownAfter.resolve "./en.json" = .ok ["en.json"] := rfl
    intro path hpath language hlanguage
    obtain rfl : "./TranslationContext.tsx" = path := Option.some.inj hpath
    obtain rfl : language = "en" := List.mem_singleton.mp hlanguage
    rw [hprovider]
    exact fun hsame => absurd (hsame.trans hcatalog) (by decide)
  settings := fun _ hpath => (nomatch hpath)
  directory := fun _ _ hnothing => absurd rfl (hnothing .directory)

/-! ### Runs that cannot be repeated -/

/-- A run succeeds and fails when it is repeated, although the name of the provider has not the
extension of a catalog and the settings file is not written. -/
structure FailsAgain (w : Workspace) (arguments : List Text) (options : Options) (config : Config) :
    Prop where
  parsed : Options.parse arguments = .ok options
  once : options.watch = false
  configured : (Config.load Disk.workspace options w).1 = .ok config
  succeeds : ∃ summary, (run Disk.workspace (pure 0) options w).1.result = .ok summary
  provider : ∀ file ∈ config.providerFile, Path.extension? file ≠ some "json"
  settings : ∀ path ∈ config.settingsPath, ∀ output ∈ config.outputPaths,
    (run Disk.workspace (pure 0) options w).2.resolve output ≠
      (run Disk.workspace (pure 0) options w).2.resolve path
  fails : ∃ report,
    (run Disk.workspace (pure 0) options (run Disk.workspace (pure 0) options w).2).1.result =
      .error report

section Provider

/-- Settings that give the name of a catalog without a name to the provider. -/
def namelessText : Text := "\x7b\"languages\":[\"\"],\"providerFile\":\".json\"\x7d"

/-- A catalog without a name, with its settings. -/
def nameless : Workspace where
  tree := ⟨[([".json"], .file (.text bareText)), (["icu-ts.json"], .file (.text namelessText))]⟩
  directory := []

def namelessSettings : Settings := { languages := [""], providerFile := some ".json" }

def namelessConfig : Config where
  dir := "."
  outDir := "."
  languages := [""]
  importRoot := Provider.defaultImportRoot
  providerFile := some ".json"
  settingsPath := some "./icu-ts.json"

theorem paths_namelessConfig : namelessConfig.outputPaths = (["./.ts", "./.json"] : List Text) :=
  rfl

theorem read_namelessText : Settings.read namelessText = .ok namelessSettings := by decide +kernel

theorem load_nameless {w : Workspace} (hread : w.read "./icu-ts.json" = .ok namelessText) :
    (Config.load Disk.workspace {} w).1 = .ok namelessConfig := by
  have hfile : w.isFile (Path.join "." Config.settingsFile) = true :=
    Workspace.isFile_iff.mpr ⟨_, Workspace.read_eq_ok_iff.mp hread⟩
  rw [load_eq_ok_iff, fst_findSettings, if_pos hfile]
  refine ⟨namelessSettings, [""], ?_, rfl, rfl⟩
  exact loadSettings_some_eq_ok_iff.mpr ⟨_, hread, read_namelessText⟩

theorem goesThrough_nameless : GoesThrough nameless {} namelessConfig [⟨"", .empty⟩] := by
  have hloads : List.Forall₂ (Loads nameless namelessConfig) namelessConfig.languages
      [⟨"", .empty⟩] :=
    .cons ⟨bareText, rfl, Catalog.load_eq_ok_iff.mpr ⟨_, read_bareText, rfl, rfl⟩⟩ .nil
  refine goesThrough_of_writable hloads rfl fun path hpath => ?_
  rw [paths_namelessConfig, List.mem_pair] at hpath
  rcases hpath with rfl | rfl
  · exact ⟨[".ts"], rfl, by decide⟩
  · exact ⟨[".json"], rfl, by decide⟩

/-- A text that starts with a slash is not JSON. -/
theorem read_slash (rest : Text) : Json.read ('/' :: rest) = .error ⟨.expectedValue, 1⟩ := by
  simp [Json.read, Json.readValue.eq_def, Json.Cursor.skipBlanks, Json.Cursor.isBlank,
    Json.Cursor.peekFault, Json.fault, Json.Cursor.peekOffset, Bind.bind, Except.bind]

/-- What is there after a run with a catalog without a name. -/
def namelessAfter : Workspace :=
  nameless.putTexts (spots nameless (outputFiles namelessConfig [⟨"", .empty⟩]))

/-- The provider replaces the catalog, and is no JSON. -/
theorem broken_nameless : Broken namelessAfter namelessConfig "" :=
  .invalid (by rfl) (read_slash _)

theorem failsAgain_nameless : FailsAgain nameless [] {} namelessConfig := by
  have hthrough := goesThrough_nameless
  have hload : (Config.load Disk.workspace {} nameless).1 = .ok namelessConfig := load_nameless rfl
  have hrun := run_of_goesThrough hthrough hload 0
  rw [writeOutputs_of_ok (hthrough.writes rfl)] at hrun
  have hafter : (run Disk.workspace (pure 0) {} nameless).2 = namelessAfter := by
    rw [hrun]
    rfl
  refine ⟨rfl, rfl, hload, ⟨_, by rw [hrun]; rfl⟩, by decide, ?_, ?_⟩
  · rw [hafter]
    have hsettings : namelessAfter.resolve "./icu-ts.json" = .ok ["icu-ts.json"] := rfl
    have hmodule : namelessAfter.resolve "./.ts" = .ok [".ts"] := rfl
    have hprovider : namelessAfter.resolve "./.json" = .ok [".json"] := rfl
    intro path hpath output houtput
    obtain rfl : "./icu-ts.json" = path := Option.some.inj hpath
    rw [paths_namelessConfig, List.mem_pair] at houtput
    rcases houtput with rfl | rfl
    · rw [hmodule, hsettings]
      decide
    · rw [hprovider, hsettings]
      decide
  · obtain ⟨report, hreport⟩ := exists_report_of_broken List.mem_cons_self broken_nameless
    refine ⟨report, ?_⟩
    rw [hafter, result_run (load_nameless (by rfl))]
    exact (runWith_of_report hreport).1

end Provider

section Settings

/-- Empty settings that can be reached through a directory which is not there. -/
def aside : Workspace where
  tree := ⟨[(["en.json"], .file (.text bareText)), (["loc"], .directory),
    (["loc", "icu-ts.json"], .file (.text []))]⟩
  directory := []

def asideArguments : List Text := ["-dnew/../loc", "-onew", "-l/en", "--no-provider"]

def asideOptions : Options :=
  { dir := "new/../loc", outDir := some "new", langs := ["/en"], noProvider := true }

def asideConfig : Config where
  dir := "new/../loc"
  outDir := "new"
  languages := ["/en"]
  importRoot := Provider.defaultImportRoot
  providerFile := none
  settingsPath := none

theorem goesThrough_aside : GoesThrough aside asideOptions asideConfig [⟨"/en", .empty⟩] := by
  have hloads : List.Forall₂ (Loads aside asideConfig) asideConfig.languages [⟨"/en", .empty⟩] :=
    .cons ⟨bareText, rfl, Catalog.load_eq_ok_iff.mpr ⟨_, read_bareText, rfl, rfl⟩⟩ .nil
  refine goesThrough_of_writable hloads rfl fun path hpath => ?_
  have hpaths : asideConfig.outputPaths = (["/en.ts"] : List Text) := rfl
  rw [hpaths, List.mem_singleton] at hpath
  subst hpath
  exact ⟨["en.ts"], rfl, by decide⟩

theorem failsAgain_aside : FailsAgain aside asideArguments asideOptions asideConfig := by
  have hthrough := goesThrough_aside
  have hload : (Config.load Disk.workspace asideOptions aside).1 = .ok asideConfig := rfl
  have hrun := run_of_goesThrough hthrough hload 0
  rw [writeOutputs_of_ok (hthrough.writes rfl)] at hrun
  refine ⟨rfl, rfl, hload, ⟨_, by rw [hrun]; rfl⟩, fun _ hfile => (nomatch hfile),
    fun _ hpath => (nomatch hpath), ?_⟩
  rw [hrun]
  exact ⟨_, (run_of_report (by rfl)).1⟩

end Settings

/-! ### Runs that are repeated -/

/-- A run that succeeds can be repeated, unless what it wrote is in the way. The second run has the
same configuration, prints and notes the same, has the same summary and exit code, and leaves all
files as they are. -/
theorem run_again (time : Nat) :
    ∀ w arguments options config outcome summary after,
      Options.parse arguments = .ok options → options.watch = false →
      (Config.load Disk.workspace options w).1 = .ok config →
      run Disk.workspace (pure time) options w = (outcome, after) →
      outcome.result = .ok summary →
      (options.check = false → Undisturbed w after options config) →
        (Config.load Disk.workspace options after).1 = .ok config ∧
        run Disk.workspace (pure time) options after = (outcome, after) ∧
        execute Disk.workspace (pure time) arguments after =
          ((execute Disk.workspace (pure time) arguments w).1, after) := by
  intro w arguments options config outcome summary after hparse _ hload hrun hresult hfree
  have hsummary : (runWith Disk.workspace (pure time) options config w).1.result = .ok summary := by
    rw [← result_run hload, hrun]
    exact hresult
  obtain ⟨catalogs, hthrough⟩ := exists_goesThrough hsummary
  have hfirst := run_of_goesThrough hthrough hload time
  rw [hrun] at hfirst
  obtain ⟨rfl, hafter⟩ := Prod.mk.inj hfirst
  suffices hagain : (Config.load Disk.workspace options after).1 = .ok config ∧
      GoesThrough after options config catalogs ∧
      (options.check = false → (writeOutputs Disk.workspace config catalogs after).2 = after) by
    obtain ⟨hload', hthrough', hwrites⟩ := hagain
    have hrun' : run Disk.workspace (pure time) options after =
        ((passed options config catalogs time).after []
          (config.settingsPath.toList.map .loadedSettings), after) := by
      rw [run_of_goesThrough hthrough' hload' time]
      cases hcheck : options.check with
      | true => rfl
      | false => simp [hwrites hcheck]
    exact ⟨hload', hrun', execute_congr hparse (by rw [hrun]) hrun'⟩
  cases hcheck : options.check with
  | true =>
    obtain rfl : after = w := by simpa [hcheck] using hafter
    exact ⟨hload, hthrough, by simp⟩
  | false =>
    obtain rfl : after = (writeOutputs Disk.workspace config catalogs w).2 := by
      simpa [hcheck] using hafter
    have hwritten := written_of_ok hthrough.loads (hthrough.writes hcheck)
    have hagain := writeOutputs_again (hthrough.writes hcheck)
    refine ⟨hwritten.load (hfree hcheck) hthrough.loads hload, ⟨?_, fun _ => ?_⟩, fun _ => ?_⟩
    · have hlisted := (List.forall₂_and_left _ _).mpr
        ⟨fun _ (hlanguage : _ ∈ config.languages) => hlanguage, hthrough.loads⟩
      exact hlisted.imp fun _ _ hloads => hwritten.loads (hfree hcheck) hloads.1 hloads.2
    · rw [hagain]
      exact hthrough.writes hcheck
    · rw [hagain]

/-- A run in the directory of its catalogs, with the language that it finds there. -/
theorem run_again_ownDirectory :
    ∃ outcome after, run Disk.workspace (pure 0) {} ownDirectory = (outcome, after) ∧
      after ≠ ownDirectory ∧ (Config.load Disk.workspace {} after).1 = .ok ownConfig ∧
      run Disk.workspace (pure 0) {} after = (outcome, after) ∧
      execute Disk.workspace (pure 0) [] after =
        ((execute Disk.workspace (pure 0) [] ownDirectory).1, after) := by
  obtain ⟨outcome, summary, hrun, hresult⟩ := run_ownDirectory
  refine ⟨outcome, ownAfter, hrun, ?_, run_again 0 ownDirectory [] {} ownConfig outcome summary
    ownAfter rfl rfl load_ownDirectory hrun hresult fun _ => undisturbed_ownDirectory⟩
  exact fun hsame => absurd (congrArg (fun w => w.tree.objects.length) hsame) (by decide)

/-- A run that succeeds cannot always be repeated, for each of two reasons. The provider can replace
a catalog, since a name that starts with its only dot has no extension. And the settings file can
turn up only when the output directory is there. -/
theorem repeated_run_fails :
    (∃ w arguments options config, FailsAgain w arguments options config ∧
        ∃ object, w.object options.dir = .ok object) ∧
      ∃ w arguments options config, FailsAgain w arguments options config ∧
        config.providerFile = none :=
  ⟨⟨nameless, [], {}, namelessConfig, failsAgain_nameless, .directory, rfl⟩,
    aside, asideArguments, asideOptions, asideConfig, failsAgain_aside, rfl⟩

end Phrasebook.Command
