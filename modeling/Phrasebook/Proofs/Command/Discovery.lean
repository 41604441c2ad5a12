import Phrasebook.Proofs.Command.Repeating
import Phrasebook.Proofs.Files.Listing
import Phrasebook.Proofs.Text.Basic
import Phrasebook.Proofs.Text.LowerCase

/-!
# Languages that are found

If neither the options nor the settings name a language, the languages are found: every file with
the extension of catalogs that stands right in the directory gives its stem, the settings file
excepted. Two things about this depend on how names are spelled.

The settings file is known by the components of its path. A path that leads to the same file in
another way, such as `x.json` for `./x.json`, does not count as the same. Then the stem of the
settings file is a language like any other.

A catalog is read from the file that is called by the lower-case form of its language, while a
language is found under any name. So the catalogs that are read are those that were found only if
all names are in lower case.
-/

namespace Phrasebook

/-! ### Names of catalogs -/

namespace Command

open Files

/-- A file gives its stem if it is called as a catalog is and is not the settings file. -/
theorem languageOf?_join_eq_some_iff {settingsPath : Option Text} {base name language : Text}
    (hname : Path.IsPlain name) :
    Config.languageOf? settingsPath (Path.join base name) = some language ↔
      language ≠ [] ∧ name = language ++ ".json" ∧ name ≠ Config.settingsFile ∧
        ∀ path ∈ settingsPath, Path.same path (Path.join base name) = false := by
  have hlast := hname.lastField_join base
  have hfile : Path.fileName? (Path.join base name) = some name := by
    rw [Path.fileName?_eq (by rw [hlast]; exact hname.1), hlast]
  have hcatalog : Path.splitExtension name = (language, some ("json" : Text)) ↔
      language ≠ [] ∧ name = language ++ ".json" := Path.splitExtension_eq_iff (by decide)
  have hsettings : settingsPath.any (Path.same · (Path.join base name)) = false ↔
      ∀ path ∈ settingsPath, Path.same path (Path.join base name) = false := by
    cases settingsPath <;> simp
  rw [Config.languageOf?, Path.extension?, Path.stem?, hfile, ← hsettings]
  constructor
  · intro h
    split_ifs at h with hextension hfile hsame
    rw [not_not] at hextension
    have hstem : (Path.splitExtension name).1 = language := Option.some.inj h
    obtain ⟨hne, hname⟩ := hcatalog.mp (Prod.ext hstem hextension)
    exact ⟨hne, hname, fun heq => hfile (congrArg some heq), by simpa using hsame⟩
  · rintro ⟨hne, hname, hfile, hsame⟩
    have hsplit := hcatalog.mpr ⟨hne, hname⟩
    rw [if_neg, if_neg, if_neg]
    · simp [hsplit]
    · simp [hsame]
    · exact fun heq => hfile (Option.some.inj heq)
    · simp [hsplit]

/-! ### Languages of a directory -/

/-- The languages of a configuration are those found in a directory. -/
structure Discovers (w : Workspace) (options : Options) (config : Config) (directory : Location) :
    Prop where
  wellFormed : w.tree.WellFormed
  loads : (Config.load Disk.workspace options w).1 = .ok config
  /-- The options name no language. -/
  options_langs : options.langs = []
  /-- The settings name no language. -/
  settings_languages : ∀ settings,
    (Config.loadSettings Disk.workspace config.settingsPath w).1 = .ok settings →
      settings.languages = []
  resolves : w.resolve options.dir = .ok directory
  is_directory : w.tree.get? directory = some .directory

namespace Discovers

variable {w : Workspace} {options : Options} {config : Config} {directory : Location}
  {language name path : Text}

theorem dir_eq (h : Discovers w options config directory) : config.dir = options.dir := by
  obtain ⟨settings, languages, -, -, rfl⟩ := load_eq_ok_iff.mp h.loads
  rfl

/-- The settings were read, and the languages are those of the files that are listed. -/
theorem exists_settings (h : Discovers w options config directory) :
    ∃ settings, (Config.loadSettings Disk.workspace config.settingsPath w).1 = .ok settings ∧
      config.languages = Config.discover config.settingsPath
        ((w.tree.fileNames directory).map (Path.join options.dir)) := by
  obtain ⟨settings, languages, hsettings, hlanguages, hconfig⟩ := load_eq_ok_iff.mp h.loads
  have hpath : config.settingsPath = (Config.findSettings Disk.workspace options w).1 := by
    rw [hconfig]
    rfl
  rw [← hpath] at hsettings hlanguages
  have hfiles := Workspace.regularFiles_of_directory h.resolves h.is_directory
  have hnone := h.settings_languages settings hsettings
  rw [findLanguages_eq_ok_iff, h.options_langs, hnone] at hlanguages
  obtain ⟨files, hfound, hlanguages⟩ := hlanguages
  obtain rfl := Except.ok.inj (hfiles.symm.trans hfound)
  refine ⟨settings, hsettings, ?_⟩
  rw [← hlanguages, hconfig]
  rfl

/-- The settings file is a file. -/
theorem exists_settings_file (h : Discovers w options config directory)
    (hpath : path ∈ config.settingsPath) : ∃ content, w.object path = .ok (.file content) := by
  obtain ⟨settings, hsettings, -⟩ := h.exists_settings
  rw [Option.mem_def.mp hpath, loadSettings_some_eq_ok_iff] at hsettings
  obtain ⟨text, hread, -⟩ := hsettings
  exact ⟨_, Workspace.read_eq_ok_iff.mp hread⟩

theorem isPlain_of_mem_fileNames (h : Discovers w options config directory)
    (hname : name ∈ w.tree.fileNames directory) : Path.IsPlain name := by
  obtain ⟨content, hfile⟩ := h.wellFormed.mem_fileNames_iff.mp hname
  exact h.wellFormed.plain_of_get? hfile name (by simp)

/-- A language is found by a file that is called as its catalog and is not the settings file. -/
theorem mem_languages_iff (h : Discovers w options config directory) :
    language ∈ config.languages ↔ language ≠ [] ∧
      (∃ content, w.tree.get? (directory ++ [language ++ ".json"]) = some (.file content)) ∧
      language ++ ".json" ≠ Config.settingsFile ∧
      ∀ path ∈ config.settingsPath,
        Path.same path (Path.join options.dir (language ++ ".json")) = false := by
  obtain ⟨-, -, hlanguages⟩ := h.exists_settings
  rw [hlanguages, Config.discover, List.mem_mergeSort, List.mem_filterMap,
    ← h.wellFormed.mem_fileNames_iff]
  constructor
  · rintro ⟨file, hfile, hlanguage⟩
    obtain ⟨name, hname, rfl⟩ := List.mem_map.mp hfile
    obtain ⟨hne, rfl, hsettings, hsame⟩ :=
      (languageOf?_join_eq_some_iff (h.isPlain_of_mem_fileNames hname)).mp hlanguage
    exact ⟨hne, hname, hsettings, hsame⟩
  · rintro ⟨hne, hname, hsettings, hsame⟩
    refine ⟨_, List.mem_map_of_mem hname, ?_⟩
    exact (languageOf?_join_eq_some_iff (h.isPlain_of_mem_fileNames hname)).mpr
      ⟨hne, rfl, hsettings, hsame⟩

/-- A language is found once. -/
theorem nodup_languages (h : Discovers w options config directory) : config.languages.Nodup := by
  obtain ⟨-, -, hlanguages⟩ := h.exists_settings
  rw [hlanguages, Config.discover, (List.mergeSort_perm _ _).nodup_iff, List.filterMap_map,
    List.Nodup, List.pairwise_filterMap]
  refine (h.wellFormed.nodup_fileNames directory).imp_of_mem ?_
  intro name other hname hother hne language hlanguage language' hlanguage' hsame
  obtain ⟨-, hname', -⟩ :=
    (languageOf?_join_eq_some_iff (h.isPlain_of_mem_fileNames hname)).mp hlanguage
  obtain ⟨-, hother', -⟩ :=
    (languageOf?_join_eq_some_iff (h.isPlain_of_mem_fileNames hother)).mp hlanguage'
  exact hne (by rw [hname', hother', hsame])

/-- Languages are found in their order. -/
theorem pairwise_lt_languages (h : Discovers w options config directory) :
    config.languages.Pairwise (· < ·) := by
  have hsorted : config.languages.Pairwise (fun a b => Text.notAfter a b = true) := by
    obtain ⟨-, -, hlanguages⟩ := h.exists_settings
    rw [hlanguages]
    refine List.pairwise_mergeSort (fun a b c => ?_) (fun a b => ?_) _
    · simp only [Text.notAfter_iff]
      exact le_trans
    · rw [Bool.or_eq_true, Text.notAfter_iff, Text.notAfter_iff]
      exact le_total a b
  refine hsorted.imp₂ (fun a b hle hne => ?_) h.nodup_languages
  exact lt_of_le_of_ne (Text.notAfter_iff.mp hle) hne

/-- The settings file is not taken for another file. -/
theorem same_eq_false (h : Discovers w options config directory)
    (hname : name ∈ w.tree.fileNames directory) (hpath : path ∈ config.settingsPath)
    (hother : w.resolve path ≠ .ok (directory ++ [name])) :
    Path.same path (Path.join options.dir name) = false := by
  obtain ⟨content, hfile⟩ := h.wellFormed.mem_fileNames_iff.mp hname
  have hjoin : w.resolve (Path.join options.dir name) = .ok (directory ++ [name]) :=
    (Workspace.resolve_join_iff (h.isPlain_of_mem_fileNames hname) h.resolves h.is_directory).mpr
      ⟨by simp [hfile], rfl⟩
  obtain ⟨_, hsettings⟩ := h.exists_settings_file hpath
  obtain ⟨location, hlocation, -⟩ := Workspace.object_eq_ok_iff.mp hsettings
  rw [← Bool.not_eq_true]
  -- Both paths lead somewhere, so with the same components they would lead to the same place.
  intro hsame
  rw [← Workspace.resolve_eq_of_same hsame hlocation hjoin] at hother
  exact hother hlocation

end Discovers

/-- Every file of the directory that is called as a catalog is found under its stem, in order, with
the exception of the usual settings file and of a settings file whose path has the components of the
directory and its name. A settings file that is spelled in another way is found as a catalog. -/
theorem discovered_languages {w : Workspace} {options : Options} {config : Config}
    {directory : Location} (h : Discovers w options config directory) :
    (∀ path ∈ config.settingsPath, ∀ stem : Text, stem ≠ [] →
      w.resolve path = .ok (directory ++ [stem ++ ".json"]) →
      (stem ∈ config.languages ↔ stem ++ ".json" ≠ Config.settingsFile ∧
        Path.same path (Path.join options.dir (stem ++ ".json")) = false)) ∧
    (∀ (stem : Text) content, stem ≠ [] → stem ++ ".json" ≠ Config.settingsFile →
      w.tree.get? (directory ++ [stem ++ ".json"]) = some (.file content) →
      (∀ path ∈ config.settingsPath, w.resolve path ≠ .ok (directory ++ [stem ++ ".json"])) →
      stem ∈ config.languages) ∧
    (∀ stem ∈ config.languages, stem ≠ [] ∧
      ∃ content, w.tree.get? (directory ++ [stem ++ ".json"]) = some (.file content)) ∧
    config.languages.Pairwise (· < ·) := by
  refine ⟨?_, ?_, fun stem hstem => ?_, h.pairwise_lt_languages⟩
  · intro path hpath stem hstem hresolve
    obtain ⟨content, hobject⟩ := h.exists_settings_file hpath
    obtain ⟨location, hlocation, hfile⟩ := Workspace.object_eq_ok_iff.mp hobject
    obtain rfl := Except.ok.inj (hresolve.symm.trans hlocation)
    have hsettings : config.settingsPath = some path := hpath
    rw [h.mem_languages_iff, hsettings, hfile]
    simp [hstem]
  · intro stem content hstem husual hfile hother
    refine h.mem_languages_iff.mpr ⟨hstem, ⟨content, hfile⟩, husual, fun path hpath => ?_⟩
    exact h.same_eq_false (h.wellFormed.mem_fileNames_iff.mpr ⟨content, hfile⟩) hpath
      (hother path hpath)
  · obtain ⟨hne, hfile, -⟩ := h.mem_languages_iff.mp hstem
    exact ⟨hne, hfile⟩

/-- The languages of a directory that lists its catalogs in order. -/
theorem discovers_of_pairwise {w : Workspace} {options : Options} {path : Option Text}
    {settings : Settings} {languages : List Text} {directory : Location}
    (hw : w.tree.WellFormed)
    (hsettings : (Config.loadSettings Disk.workspace path w).1 = .ok settings)
    (hpath : (Config.findSettings Disk.workspace options w).1 = path)
    (hoptions : options.langs = []) (hnone : settings.languages = [])
    (hresolve : w.resolve options.dir = .ok directory)
    (hdirectory : w.tree.get? directory = some .directory)
    (hfound : ((w.tree.fileNames directory).map (Path.join options.dir)).filterMap
      (Config.languageOf? path) = languages)
    (hsorted : languages.Pairwise fun a b => Text.notAfter a b = true) :
    Discovers w options (Config.ofSettings options path settings languages) directory where
  wellFormed := hw
  loads := by
    rw [load_eq_ok_iff, hpath]
    refine ⟨settings, languages, hsettings, ?_, rfl⟩
    rw [findLanguages_eq_ok_iff, hoptions, hnone]
    refine ⟨_, Workspace.regularFiles_of_directory hresolve hdirectory, ?_⟩
    rw [Config.discover, hfound, List.mergeSort_of_pairwise hsorted]
  options_langs := hoptions
  settings_languages := by
    intro other hother
    rwa [← Except.ok.inj (hsettings.symm.trans hother)]
  resolves := hresolve
  is_directory := hdirectory

/-- A directory with a catalog and a settings file, which has not the usual name. -/
def ownSettings : Workspace :=
  ((⟨{}, []⟩ : Workspace).store "custom.json" (.text bareText)).store "en.json" (.text bareText)

/-- Options that spell the settings file without the directory. -/
def ownSettingsOptions : Options := { config := some "custom.json" }

def ownSettingsConfig : Config :=
  .ofSettings ownSettingsOptions (some "custom.json") {} ["custom", "en"]

theorem discovers_ownSettings :
    Discovers ownSettings ownSettingsOptions ownSettingsConfig [] := by
  refine discovers_of_pairwise ?_ ?_ rfl rfl rfl rfl rfl ?_ ?_
  · exact Workspace.wellFormed_store (Workspace.wellFormed_store Tree.wellFormed_empty _ _) _ _
  · decide +kernel
  · decide +kernel
  · decide +kernel

/-- The settings file is found as a catalog because its path leaves out the directory. -/
theorem discovered_languages_ownSettings :
    Discovers ownSettings ownSettingsOptions ownSettingsConfig [] ∧
    ownSettings.resolve "custom.json" = .ok ["custom.json"] ∧
    ("custom" : Text) ∈ ownSettingsConfig.languages :=
  ⟨discovers_ownSettings, rfl,
    ((discovered_languages discovers_ownSettings).1 "custom.json" rfl "custom" (by decide) rfl).mpr
      (by decide)⟩

/-! ### Catalogs of languages that are found -/

/-- The file that a language is found by. -/
def Config.foundPath (config : Config) (language : Text) : Text :=
  Path.join config.dir (language ++ ".json")

section Catalogs

variable {w : Workspace} {options : Options} {config : Config} {directory : Location}
  {language : Text}

theorem isPlain_catalog (h : '/' ∉ language) : Path.IsPlain (language ++ ".json") := by
  refine ⟨isName_of_suffix (List.suffix_append _ _), ?_⟩
  rw [List.mem_append, not_or]
  exact ⟨h, by decide⟩

theorem lastField_foundPath (config : Config) (h : '/' ∉ language) :
    Path.lastField (config.foundPath language) = language ++ ".json" :=
  (isPlain_catalog h).lastField_join config.dir

/-- A catalog is read from the file that its language in lower case is found by. -/
theorem inputPath_eq (config : Config) (language : Text) :
    config.inputPath language = config.foundPath (Text.lower language) := rfl

/-- A file is named as one that cannot be read only if that is so. -/
theorem read_of_catalogOf_unreadable {path : Text} {fault : Fault}
    (h : catalogOf w config language = .error (.unreadable path fault)) :
    w.read (config.inputPath language) = .error fault := by
  rw [catalogOf] at h
  cases htext : w.read (config.inputPath language) with
  | error other =>
    rw [htext] at h
    rw [(Catalog.Error.unreadable.inj (Except.error.inj h)).2]
  | ok text =>
    rw [htext] at h
    exact absurd rfl (Catalog.ne_unreadable_of_load h path fault)

/-- The first catalog that cannot be made is reported. -/
theorem exists_of_loadCatalogs_error {languages : List Text} {report : Report}
    (h : (loadCatalogs Disk.workspace config languages w).1 = .error report) :
    ∃ language ∈ languages, ∃ error, report = catalogReport language error ∧
      ∀ path fault, error = .unreadable path fault →
        w.read (config.inputPath language) = .error fault := by
  induction languages with
  | nil => cases h
  | cons language rest ih =>
    rw [loadCatalogs_cons] at h
    cases hcatalog : catalogOf w config language with
    | error error =>
      rw [hcatalog] at h
      refine ⟨language, List.mem_cons_self, error, (Except.error.inj h).symm, ?_⟩
      rintro path fault rfl
      exact read_of_catalogOf_unreadable hcatalog
    | ok catalog =>
      rw [hcatalog] at h
      have hrest : (loadCatalogs Disk.workspace config rest w).1 = .error report := by
        cases hresult : (loadCatalogs Disk.workspace config rest w).1 with
        | error other => simpa [hresult, Except.map] using h
        | ok catalogs => simp [hresult, Except.map] at h
      obtain ⟨other, hother, hreport⟩ := ih hrest
      exact ⟨other, List.mem_cons_of_mem _ hother, hreport⟩

namespace Discovers

theorem slash_not_mem (h : Discovers w options config directory)
    (hlanguage : language ∈ config.languages) : '/' ∉ language := by
  obtain ⟨-, hfile, -, -⟩ := h.mem_languages_iff.mp hlanguage
  have hplain := h.isPlain_of_mem_fileNames (h.wellFormed.mem_fileNames_iff.mpr hfile)
  exact fun hslash => hplain.2 (List.mem_append_left _ hslash)

theorem nodup_foundPaths (h : Discovers w options config directory) :
    (config.languages.map config.foundPath).Nodup := by
  refine List.Nodup.map_on (fun language hlanguage other hother hsame => ?_) h.nodup_languages
  have hlast := congrArg Path.lastField hsame
  rw [lastField_foundPath config (h.slash_not_mem hlanguage),
    lastField_foundPath config (h.slash_not_mem hother)] at hlast
  exact List.append_cancel_right hlast

/-- The files that languages are found by. -/
theorem mem_foundPaths_iff (h : Discovers w options config directory) {file : Text} :
    file ∈ config.languages.map config.foundPath ↔
      ∃ name content, file = Path.join options.dir name ∧
        w.tree.get? (directory ++ [name]) = some (.file content) ∧
        Path.extension? name = some "json" ∧ name ≠ Config.settingsFile ∧
        ∀ path ∈ config.settingsPath, Path.same path file = false := by
  have hplain : ∀ {name content}, w.tree.get? (directory ++ [name]) = some (.file content) →
      Path.IsPlain name :=
    fun hfile => h.wellFormed.plain_of_get? hfile _ (by simp)
  rw [List.mem_map]
  constructor
  · rintro ⟨language, hlanguage, rfl⟩
    obtain ⟨hne, ⟨content, hfile⟩, husual, hsame⟩ := h.mem_languages_iff.mp hlanguage
    rw [Config.foundPath, h.dir_eq]
    refine ⟨_, content, rfl, hfile, ?_, husual, hsame⟩
    exact (Path.extension?_eq_some_iff (hplain hfile) (by decide)).mpr ⟨language, hne, rfl⟩
  · rintro ⟨name, content, rfl, hfile, hextension, husual, hsame⟩
    obtain ⟨language, hne, rfl⟩ :=
      (Path.extension?_eq_some_iff (hplain hfile) (by decide)).mp hextension
    exact ⟨language, h.mem_languages_iff.mpr ⟨hne, ⟨content, hfile⟩, husual, hsame⟩,
      by rw [Config.foundPath, h.dir_eq]; rfl⟩

/-- The files that are read are those that were found if and only if all names are in lower case. -/
theorem perm_iff (h : Discovers w options config directory) :
    (config.languages.map config.inputPath).Perm (config.languages.map config.foundPath) ↔
      ∀ language ∈ config.languages, Text.lower language = language := by
  constructor
  · intro hperm language hlanguage
    have hfound : config.foundPath language ∈ config.languages.map config.inputPath :=
      hperm.mem_iff.mpr (List.mem_map_of_mem hlanguage)
    obtain ⟨other, hother, hsame⟩ := List.mem_map.mp hfound
    have hslash := Text.slash_not_mem_lower (h.slash_not_mem hother)
    have hlast := congrArg Path.lastField hsame
    rw [inputPath_eq, lastField_foundPath config hslash,
      lastField_foundPath config (h.slash_not_mem hlanguage)] at hlast
    rw [← List.append_cancel_right hlast, Text.lower_lower]
  · intro hlower
    rw [List.map_congr_left fun language hlanguage => by
      rw [inputPath_eq, hlower language hlanguage]]

/-- The catalog of a language is there if there is a file with the name of the language in lower
case. -/
theorem isFile_inputPath_iff (h : Discovers w options config directory)
    (hlanguage : language ∈ config.languages) :
    w.isFile (config.inputPath language) = true ↔
      ∃ content, w.tree.get? (directory ++ [Text.lower language ++ ".json"]) =
        some (.file content) := by
  have hplain := isPlain_catalog (Text.slash_not_mem_lower (h.slash_not_mem hlanguage))
  rw [Workspace.isFile_iff, inputPath_eq, Config.foundPath, h.dir_eq]
  simp only [Workspace.object_join_iff hplain h.resolves h.is_directory]

end Discovers

theorem ne_notFound_of_isFile {path : Text} (h : w.isFile path = true) :
    w.read path ≠ .error .notFound := by
  obtain ⟨content, hobject⟩ := Workspace.isFile_iff.mp h
  rw [Workspace.read, hobject]
  cases content <;> simp

end Catalogs

/-- The files that languages are found by are those of the directory with the extension of catalogs,
once each, the settings file excepted. They are the files that are read if and only if all their
names are in lower case. Then no catalog fails because its file is not there. In general the file of
a language is there if there is one with its name in lower case. -/
theorem inputPaths_perm_iff {w : Workspace} {options : Options} {config : Config}
    {directory : Location} (h : Discovers w options config directory) :
    (config.languages.map config.foundPath).Nodup ∧
    (∀ file, file ∈ config.languages.map config.foundPath ↔
      ∃ name content, file = Path.join options.dir name ∧
        w.tree.get? (directory ++ [name]) = some (.file content) ∧
        Path.extension? name = some "json" ∧ name ≠ Config.settingsFile ∧
        ∀ path ∈ config.settingsPath, Path.same path file = false) ∧
    ((config.languages.map config.inputPath).Perm (config.languages.map config.foundPath) ↔
      ∀ language ∈ config.languages, Text.lower language = language) ∧
    (∀ language ∈ config.languages, w.isFile (config.inputPath language) = true ↔
      ∃ content, w.tree.get? (directory ++ [Text.lower language ++ ".json"]) =
        some (.file content)) ∧
    ((∀ language ∈ config.languages, Text.lower language = language) →
      ∀ report, (loadCatalogs Disk.workspace config config.languages w).1 = .error report →
        ∃ language ∈ config.languages, ∃ error, report = catalogReport language error ∧
          ∀ path, error ≠ .unreadable path .notFound) := by
  refine ⟨h.nodup_foundPaths, fun file => h.mem_foundPaths_iff, h.perm_iff,
    fun language hlanguage => h.isFile_inputPath_iff hlanguage, fun hlower report hreport => ?_⟩
  obtain ⟨language, hlanguage, error, rfl, hunreadable⟩ := exists_of_loadCatalogs_error hreport
  refine ⟨language, hlanguage, error, rfl, fun path herror => ?_⟩
  obtain ⟨-, hfile, -, -⟩ := h.mem_languages_iff.mp hlanguage
  rw [← hlower language hlanguage] at hfile
  exact ne_notFound_of_isFile ((h.isFile_inputPath_iff hlanguage).mpr hfile)
    (hunreadable path .notFound herror)

/-- A directory with two catalogs whose names are the same in lower case. -/
def twoCases : Workspace :=
  ((⟨{}, []⟩ : Workspace).store "EN.json" (.text bareText)).store "en.json" (.text bareText)

def twoCasesConfig : Config := .ofSettings {} none {} ["EN", "en"]

theorem discovers_twoCases : Discovers twoCases {} twoCasesConfig [] := by
  refine discovers_of_pairwise ?_ rfl rfl rfl rfl rfl rfl ?_ ?_
  · exact Workspace.wellFormed_store (Workspace.wellFormed_store Tree.wellFormed_empty _ _) _ _
  · decide +kernel
  · decide +kernel

/-- One of two catalogs is read twice, and the other one is not read. -/
theorem inputPaths_perm_iff_twoCases :
    Discovers twoCases {} twoCasesConfig [] ∧
    twoCasesConfig.languages.map twoCasesConfig.foundPath =
      (["./EN.json", "./en.json"] : List Text) ∧
    twoCasesConfig.languages.map twoCasesConfig.inputPath =
      (["./en.json", "./en.json"] : List Text) ∧
    ¬ (twoCasesConfig.languages.map twoCasesConfig.inputPath).Perm
      (twoCasesConfig.languages.map twoCasesConfig.foundPath) := by
  refine ⟨discovers_twoCases, by decide +kernel, by decide +kernel, fun hperm => ?_⟩
  have hlower := (inputPaths_perm_iff discovers_twoCases).2.2.1.mp hperm "EN" (by decide)
  exact absurd hlower (by decide +kernel)

end Command

end Phrasebook
