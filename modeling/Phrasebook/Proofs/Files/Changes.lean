import Phrasebook.Proofs.Files.Writing
import Mathlib.Data.List.TakeWhile
import Mathlib.Tactic.Contrapose
import Mathlib.Tactic.SplitIfs

/-!
# Changes of files

Making directories and writing files only adds to a workspace: what is a directory stays one, and
what is a file stays one, though with another text perhaps. So a path that leads somewhere leads to
the same place afterwards. What has changed between two times can thus be said by the paths that
were made or written, and changes that follow each other add up.

## Main definitions

* `Files.Tree.Grows`: all that stands in a tree stands in another one, as the same kind of thing.
* `Files.Workspace.Touches`: all that has changed is directories that were made and files that were
  written, at given paths.

## Main results

* `Files.Workspace.resolve_of_target`: the path of a new object leads to it from then on.
* `Files.Workspace.Touches.trans`: changes that follow each other.
* `Files.Workspace.touches_of_makeDirectory`, `Files.Workspace.touches_of_write`: single changes.
* `Files.Workspace.touches_makeAll`: what changes when directories are made above each other.
-/

namespace Phrasebook.Files

/-- A field of a path is a name, and not a way to stay or to go up. -/
def Path.IsName (field : Text) : Prop := field ≠ [] ∧ field ≠ "." ∧ field ≠ ".."

/-! ### Following fields -/

namespace Tree

variable {tree a b : Tree} {location next start stop : Location} {field : Text}

/-- Only a directory leads on. -/
theorem directory_of_step (h : tree.step location field = .ok next) :
    tree.get? location = some .directory := by
  rw [step] at h
  split at h
  · simp at h
  · simp at h
  · assumption

/-- A name leads to what stands under it. -/
theorem step_name_iff (hname : Path.IsName field) :
    tree.step location field = .ok next ↔
      tree.get? location = some .directory ∧ (tree.get? (location ++ [field])).isSome ∧
        next = location ++ [field] := by
  obtain ⟨hempty, hhere, hup⟩ := hname
  have hstays : ¬ (field.isEmpty || decide (field = ".")) = true := by
    rw [Bool.or_eq_true, List.isEmpty_iff, decide_eq_true_iff, not_or]
    exact ⟨hempty, hhere⟩
  constructor
  · intro h
    have hdirectory := directory_of_step h
    rw [step, hdirectory] at h
    dsimp only at h
    rw [if_neg hstays, if_neg hup] at h
    split_ifs at h with hsome
    exact ⟨hdirectory, hsome, (Except.ok.inj h).symm⟩
  · rintro ⟨hdirectory, hsome, rfl⟩
    rw [step, hdirectory]
    dsimp only
    rw [if_neg hstays, if_neg hup, if_pos hsome]

theorem follow_append_iff {first second : List Text} :
    tree.follow start (first ++ second) = .ok stop ↔
      ∃ middle, tree.follow start first = .ok middle ∧ tree.follow middle second = .ok stop := by
  induction first generalizing start with
  | nil => simp [follow]
  | cons field rest ih =>
    rw [List.cons_append, follow, follow]
    cases tree.step start field with
    | error fault => simp
    | ok next => exact ih

theorem follow_cons_iff {rest : List Text} :
    tree.follow start (field :: rest) = .ok stop ↔
      ∃ next, tree.step start field = .ok next ∧ tree.follow next rest = .ok stop := by
  rw [follow]
  cases tree.step start field <;> simp

theorem follow_singleton : tree.follow start [field] = tree.step start field := by
  rw [follow]
  cases tree.step start field <;> rfl

/-- Slashes after a directory lead nowhere else. -/
theorem follow_of_forall_nil (hdirectory : tree.get? location = some .directory)
    {fields : List Text} (h : ∀ field ∈ fields, field = []) :
    tree.follow location fields = .ok location := by
  induction fields with
  | nil => rfl
  | cons field rest ih =>
    obtain ⟨rfl, hrest⟩ := List.forall_mem_cons.mp h
    rw [follow, step, hdirectory]
    exact ih hrest

/-- All that stands in a tree stands in another one as well, as the same kind of thing. -/
def Grows (a b : Tree) : Prop :=
  ∀ location object, a.get? location = some object →
    ∃ object', b.get? location = some object' ∧ (object' = .directory ↔ object = .directory)

namespace Grows

theorem directory (h : a.Grows b) (ha : a.get? location = some .directory) :
    b.get? location = some .directory := by
  obtain ⟨object, hobject, hkind⟩ := h location .directory ha
  rw [hobject, hkind.mpr rfl]

/-- What has become a directory was one if it was there. -/
theorem directory_of_isSome (h : a.Grows b) (ha : (a.get? location).isSome)
    (hb : b.get? location = some .directory) : a.get? location = some .directory := by
  obtain ⟨object, hobject⟩ := Option.isSome_iff_exists.mp ha
  obtain ⟨object', hobject', hkind⟩ := h location object hobject
  rw [hobject, hkind.mp (Option.some.inj (hobject'.symm.trans hb))]

theorem isSome (h : a.Grows b) (ha : (a.get? location).isSome) : (b.get? location).isSome := by
  obtain ⟨object, hobject⟩ := Option.isSome_iff_exists.mp ha
  obtain ⟨object', hobject', -⟩ := h location object hobject
  simp [hobject']

theorem step (h : a.Grows b) (ha : a.step location field = .ok next) :
    b.step location field = .ok next := by
  have hdirectory := directory_of_step ha
  rw [Tree.step, hdirectory] at ha
  rw [Tree.step, h.directory hdirectory]
  dsimp only at ha ⊢
  split_ifs at ha with hhere hup hpresent
  · rw [if_pos hhere]
    exact ha
  · rw [if_neg hhere, if_pos hup]
    exact ha
  · rw [if_neg hhere, if_neg hup, if_pos (h.isSome hpresent)]
    exact ha

/-- Fields that lead somewhere lead there in a tree that has grown. -/
theorem follow (h : a.Grows b) {fields : List Text} (ha : a.follow start fields = .ok stop) :
    b.follow start fields = .ok stop := by
  induction fields generalizing start with
  | nil => exact ha
  | cons field rest ih =>
    obtain ⟨next, hstep, hrest⟩ := follow_cons_iff.mp ha
    exact follow_cons_iff.mpr ⟨next, h.step hstep, ih hrest⟩

end Grows

end Tree

namespace Workspace

variable {w a b c : Workspace} {path : Text} {location : Location} {slash : Bool}

/-! ### Where paths lead -/

theorem base_congr (h : b.directory = a.directory) : b.base path = a.base path := by
  rw [base, base, h]

theorem resolve_eq_ok_iff :
    w.resolve path = .ok location ↔
      path ≠ [] ∧ w.tree.follow (w.base path) (Text.fields '/' path) = .ok location := by
  rw [resolve]
  by_cases hpath : path = [] <;> simp [hpath]

theorem object_eq_ok_iff {object : Object} :
    w.object path = .ok object ↔
      ∃ location, w.resolve path = .ok location ∧ w.tree.get? location = some object := by
  rw [Workspace.object]
  cases w.resolve path with
  | error fault => simp
  | ok location => cases hobject : w.tree.get? location <;> simp [hobject]

theorem read_eq_ok_iff {text : Text} :
    w.read path = .ok text ↔ w.object path = .ok (.file (.text text)) := by
  rw [read]
  split <;> simp_all

theorem isFile_iff :
    w.isFile path = true ↔ ∃ content, w.object path = .ok (.file content) := by
  rw [isFile]
  split <;> simp_all

/-- A path that leads somewhere leads there in a workspace that has grown. -/
theorem resolve_of_grows (hdirectory : b.directory = a.directory) (hgrows : a.tree.Grows b.tree)
    (h : a.resolve path = .ok location) : b.resolve path = .ok location := by
  rw [resolve_eq_ok_iff] at h ⊢
  rw [base_congr hdirectory]
  exact ⟨h.1, hgrows.follow h.2⟩

/-- The last field that is not empty, with the empty ones behind it. -/
theorem exists_slashes {fields before : List Text} {name : Text}
    (h : fields.reverse.dropWhile List.isEmpty = name :: before) :
    ∃ slashes, fields = before.reverse ++ name :: slashes ∧ name ≠ [] ∧
      (∀ field ∈ slashes, field = []) ∧ (fields.reverse.head? ≠ some [] → slashes = []) := by
  have hsplit := List.takeWhile_append_dropWhile (p := List.isEmpty) (l := fields.reverse)
  have hhead := List.head?_dropWhile_not List.isEmpty fields.reverse
  have hempty (field : Text) (hfield : field ∈ fields.reverse.takeWhile List.isEmpty) :
      field = [] := List.isEmpty_iff.mp (List.mem_takeWhile_imp hfield)
  rw [h] at hsplit hhead
  generalize fields.reverse.takeWhile List.isEmpty = slashes at hsplit hempty
  refine ⟨slashes.reverse, ?_, by simpa using hhead, fun field hfield => ?_, fun hlast => ?_⟩
  · rw [← List.reverse_reverse fields, ← hsplit]
    simp
  · exact hempty field (List.mem_reverse.mp hfield)
  · cases slashes with
    | nil => rfl
    | cons first rest =>
      rw [← hsplit, List.cons_append, List.head?_cons] at hlast
      exact absurd (congrArg some (hempty first List.mem_cons_self)) hlast

/-- A path with an entry as its target ends with a name in a directory. Slashes may follow. -/
theorem exists_of_target (h : w.target path = .ok (.entry location slash)) :
    ∃ before name slashes start, path ≠ [] ∧ Text.fields '/' path = before ++ name :: slashes ∧
      Path.IsName name ∧ (∀ field ∈ slashes, field = []) ∧ (slash = false → slashes = []) ∧
      w.tree.LeadsToDirectory (w.base path) before start ∧ location = start ++ [name] := by
  rw [target] at h
  split_ifs at h with hempty
  dsimp only at h
  split at h
  · simp at h
  · rename_i name before hfields
    obtain ⟨slashes, hsplit, hname, hslashes, hlast⟩ := exists_slashes hfields
    cases hfollow : w.tree.follow (w.base path) before.reverse with
    | error fault => simp [hfollow] at h
    | ok start =>
      rw [hfollow] at h
      dsimp only at h
      split at h
      · simp at h
      · simp at h
      · rename_i hstart
        by_cases hdots : name = "." ∨ name = ".."
        · rw [if_pos hdots] at h
          simp at h
        · rw [if_neg hdots] at h
          obtain ⟨rfl, hslash⟩ := Target.entry.inj (Except.ok.inj h)
          refine ⟨before.reverse, name, slashes, start, by simpa using hempty, hsplit,
            ⟨hname, not_or.mp hdots⟩, hslashes, fun hfalse => hlast ?_, ⟨hfollow, hstart⟩, rfl⟩
          rwa [hfalse, decide_eq_false_iff_not] at hslash

/-- The path of a new object leads to it from then on. -/
theorem resolve_of_target (h : a.target path = .ok (.entry location slash))
    (hdirectory : b.directory = a.directory) (hgrows : a.tree.Grows b.tree) {object : Object}
    (hobject : b.tree.get? location = some object) (hkind : slash = true → object = .directory) :
    b.resolve path = .ok location := by
  obtain ⟨before, name, slashes, start, hpath, hfields, hname, hslashes, hslash, hstart, rfl⟩ :=
    exists_of_target h
  rw [resolve_eq_ok_iff, hfields, base_congr hdirectory, Tree.follow_append_iff]
  refine ⟨hpath, start, hgrows.follow hstart.1, ?_⟩
  have hstep : b.tree.step start name = .ok (start ++ [name]) :=
    (Tree.step_name_iff hname).mpr ⟨hgrows.directory hstart.2, by simp [hobject], rfl⟩
  rw [Tree.follow_cons_iff]
  refine ⟨_, hstep, ?_⟩
  cases slash with
  | false => rw [hslash rfl]; rfl
  | true => exact Tree.follow_of_forall_nil (by rw [hobject, hkind rfl]) hslashes

/-- Below a location is not the root. -/
theorem ne_nil_of_target (h : w.target path = .ok (.entry location slash)) : location ≠ [] := by
  obtain ⟨-, -, -, -, -, -, -, -, -, -, rfl⟩ := exists_of_target h
  simp

/-! ### What has changed -/

/-- A file is written at a location that a path leads to. -/
structure Writes (before after : Workspace) (location : Location) (path : Text) : Prop where
  leads : after.resolve path = .ok location
  noDirectory : before.tree.get? location ≠ some .directory
  written : ∃ text, after.tree.get? location = some (.file (.text text))

/-- A directory is made at a location that a path leads to. -/
structure Makes (before after : Workspace) (location : Location) (path : Text) : Prop where
  leads : after.resolve path = .ok location
  absent : before.tree.get? location = none
  made : after.tree.get? location = some .directory

/-- All that has changed between two times is directories that were made and files that were
written, at given paths. -/
structure Touches (directories files : List Text) (before after : Workspace) : Prop where
  directory : after.directory = before.directory
  changed : ∀ location, after.tree.get? location ≠ before.tree.get? location →
    (∃ path ∈ files, Writes before after location path) ∨
      ∃ path ∈ directories, Makes before after location path

namespace Touches

variable {directories directories' files files' : List Text}

theorem refl (w : Workspace) : Touches directories files w w :=
  ⟨rfl, fun _ h => absurd rfl h⟩

/-- Changes add, but take nothing away. -/
theorem grows (h : Touches directories files a b) : a.tree.Grows b.tree := by
  intro location object hobject
  by_cases hchanged : b.tree.get? location = a.tree.get? location
  · exact ⟨object, hchanged.trans hobject, Iff.rfl⟩
  · rcases h.changed location hchanged with ⟨path, -, hwrites⟩ | ⟨path, -, hmakes⟩
    · obtain ⟨text, htext⟩ := hwrites.written
      refine ⟨_, htext, ?_⟩
      have hfile : object ≠ .directory := by
        rintro rfl
        exact hwrites.noDirectory hobject
      simp [hfile]
    · simp [hmakes.absent] at hobject

theorem resolve (h : Touches directories files a b) (ha : a.resolve path = .ok location) :
    b.resolve path = .ok location :=
  resolve_of_grows h.directory h.grows ha

/-- Changes that follow each other add up. -/
theorem trans (hab : Touches directories files a b) (hbc : Touches directories files b c) :
    Touches directories files a c := by
  refine ⟨hbc.directory.trans hab.directory, fun location hchanged => ?_⟩
  by_cases hlast : c.tree.get? location = b.tree.get? location
  · rw [hlast] at hchanged
    rcases hab.changed location hchanged with ⟨path, hpath, hwrites⟩ | ⟨path, hpath, hmakes⟩
    · obtain ⟨text, htext⟩ := hwrites.written
      exact .inl ⟨path, hpath, hbc.resolve hwrites.leads, hwrites.noDirectory, text,
        hlast.trans htext⟩
    · exact .inr ⟨path, hpath, hbc.resolve hmakes.leads, hmakes.absent, hlast.trans hmakes.made⟩
  · rcases hbc.changed location hlast with ⟨path, hpath, hwrites⟩ | ⟨path, hpath, hmakes⟩
    · refine .inl ⟨path, hpath, hwrites.leads, ?_, hwrites.written⟩
      exact fun hdirectory => hwrites.noDirectory (hab.grows.directory hdirectory)
    · refine .inr ⟨path, hpath, hmakes.leads, ?_, hmakes.made⟩
      have habsent := hmakes.absent
      contrapose! habsent
      exact Option.isSome_iff_ne_none.mp (hab.grows.isSome (Option.isSome_iff_ne_none.mpr habsent))

theorem mono (h : Touches directories files a b) (hdirectories : directories ⊆ directories')
    (hfiles : files ⊆ files') : Touches directories' files' a b := by
  refine ⟨h.directory, fun location hchanged => ?_⟩
  rcases h.changed location hchanged with ⟨path, hpath, hwrites⟩ | ⟨path, hpath, hmakes⟩
  · exact .inl ⟨path, hfiles hpath, hwrites⟩
  · exact .inr ⟨path, hdirectories hpath, hmakes⟩

/-- What stands where neither a file nor a directory was put is as it was. -/
theorem get?_eq (h : Touches directories files a b) {object : Object}
    (hobject : a.tree.get? location = some object)
    (hfiles : ∀ path ∈ files, b.resolve path ≠ .ok location) :
    b.tree.get? location = some object := by
  rw [← hobject]
  by_contra hchanged
  rcases h.changed location hchanged with ⟨path, hpath, hwrites⟩ | ⟨path, -, hmakes⟩
  · exact hfiles path hpath hwrites.leads
  · simp [hmakes.absent] at hobject

/-- What stands at a path is as it was, unless a file was written there. -/
theorem object (h : Touches directories files a b) {object : Object}
    (hobject : a.object path = .ok object)
    (hfiles : ∀ file ∈ files, b.resolve file ≠ b.resolve path) : b.object path = .ok object := by
  obtain ⟨location, hresolve, hthere⟩ := object_eq_ok_iff.mp hobject
  have hresolve' := h.resolve hresolve
  rw [hresolve'] at hfiles
  exact object_eq_ok_iff.mpr ⟨location, hresolve', h.get?_eq hthere hfiles⟩

end Touches

/-! ### Single changes -/

theorem makeDirectory_eq_ok_iff {made : Workspace} :
    w.makeDirectory path = .ok made ↔
      ∃ location slash, w.target path = .ok (.entry location slash) ∧
        w.tree.get? location = none ∧ made = w.put location .directory := by
  rw [makeDirectory]
  cases w.target path with
  | error fault => simp
  | ok found =>
    cases found with
    | existing => simp
    | entry location slash =>
      cases hobject : w.tree.get? location with
      | none => simp [hobject, eq_comm]
      | some object => simp [hobject]

/-- An object in the place of nothing, or a file in the place of a file, is the only change. -/
theorem get?_put_eq_or (w : Workspace) (hlocation : location ≠ []) (object : Object)
    (place : Location) :
    (place = location ∧ (w.put location object).tree.get? place = some object) ∨
      (place ≠ location ∧ (w.put location object).tree.get? place = w.tree.get? place) := by
  rw [put, Tree.get?_put]
  by_cases hplace : place = location
  · simp [hplace, hlocation]
  · simp [hplace]

theorem touches_of_makeDirectory {made : Workspace} (h : w.makeDirectory path = .ok made) :
    Touches [path] [] w made := by
  obtain ⟨location, slash, htarget, habsent, rfl⟩ := makeDirectory_eq_ok_iff.mp h
  have hput := get?_put_eq_or w (ne_nil_of_target htarget) .directory
  have hthere : (w.put location .directory).tree.get? location = some .directory := by
    simpa using hput location
  have hgrows : w.tree.Grows (w.put location .directory).tree := by
    intro place object hobject
    rcases hput place with ⟨rfl, -⟩ | ⟨-, hsame⟩
    · simp [habsent] at hobject
    · exact ⟨object, hsame.trans hobject, Iff.rfl⟩
  refine ⟨rfl, fun place hchanged => .inr ⟨path, List.mem_singleton_self _, ?_⟩⟩
  rcases hput place with ⟨rfl, -⟩ | ⟨-, hsame⟩
  · exact ⟨resolve_of_target htarget rfl hgrows hthere fun _ => rfl, habsent, hthere⟩
  · exact absurd hsame hchanged

theorem touches_of_write {written : Workspace} {content : Text}
    (h : w.write path content = .ok written) : Touches [] [path] w written := by
  obtain ⟨location, htarget, hlocation, rfl⟩ := write_eq_ok_iff.mp h
  have hput := get?_put_eq_or w (ne_nil_of_target htarget) (.file (.text content))
  have hthere : (w.put location (.file (.text content))).tree.get? location =
      some (.file (.text content)) := by
    simpa using hput location
  have hgrows : w.tree.Grows (w.put location (.file (.text content))).tree := by
    intro place object hobject
    rcases hput place with ⟨rfl, hfile⟩ | ⟨-, hsame⟩
    · have hold : object ≠ .directory := by
        rintro rfl
        exact hlocation hobject
      exact ⟨_, hfile, by simp [hold]⟩
    · exact ⟨object, hsame.trans hobject, Iff.rfl⟩
  refine ⟨rfl, fun place hchanged => .inl ⟨path, List.mem_singleton_self _, ?_⟩⟩
  rcases hput place with ⟨rfl, -⟩ | ⟨-, hsame⟩
  · exact ⟨resolve_of_target htarget rfl hgrows hthere (by simp), hlocation, _, hthere⟩
  · exact absurd hsame hchanged

/-! ### Directories above each other -/

/-- What every single directory that is made keeps is kept when all are made, also if this fails on
the way. -/
theorem makeAll_invariant {P : Workspace → Prop} {paths : List Text} (hw : P w)
    (hstep : ∀ path ∈ paths, ∀ w made, P w → w.makeDirectory path = .ok made → P made) :
    P (w.makeAll paths).1 := by
  induction paths with
  | nil => exact hw
  | cons path above ih =>
    have hpath := hstep path List.mem_cons_self
    have habove := ih fun path hpath => hstep path (List.mem_cons_of_mem _ hpath)
    rw [makeAll]
    cases hmake : w.makeDirectory path with
    | ok made => exact hpath w made hw hmake
    | error fault =>
      cases fault with
      | notFound =>
        dsimp only
        -- The directories above are made first, and only then the path itself.
        rcases hall : w.makeAll above with ⟨made, result⟩
        rw [hall] at habove
        cases result with
        | error fault => exact habove
        | ok _ =>
          dsimp only
          cases hagain : made.makeDirectory path with
          | ok last => exact hpath made last habove hagain
          | error fault => exact habove
      | _ => exact hw

theorem touches_makeAll (w : Workspace) (paths : List Text) :
    Touches paths [] w (w.makeAll paths).1 := by
  refine makeAll_invariant (.refl w) fun path hpath w' made htouches hmake => ?_
  refine htouches.trans ((touches_of_makeDirectory hmake).mono ?_ (List.Subset.refl _))
  exact List.cons_subset.mpr ⟨hpath, List.nil_subset _⟩

end Workspace

end Phrasebook.Files
