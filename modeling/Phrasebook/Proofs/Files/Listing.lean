import Phrasebook.Proofs.Files.Names
import Phrasebook.Proofs.Files.Overwriting

/-!
# Listings of directories

A file tree has one object at each location, and the names that lead there are plain: they are not
empty or dots, and have no slash in them. Whatever is done to files keeps a tree like that. Then the
files right below a location are listed once each, and a listed name that is joined to a path of the
location leads to the file.

A path that leads somewhere leads to the end of the walk along its components. So paths with the
same components cannot lead to different locations, while paths with different ones may well lead
to the same.
-/

namespace Phrasebook.Files

/-- A name that a file can have. -/
def Path.IsPlain (name : Text) : Prop := IsName name ∧ '/' ∉ name

/-! ### Well-formed trees -/

namespace Tree

variable {tree : Tree} {location place directory : Location} {object : Object} {name : Text}
  {objects : List (Location × Object)}

/-- A tree has one object at each location, under plain names. -/
structure WellFormed (tree : Tree) : Prop where
  nodup : (tree.objects.map Prod.fst).Nodup
  plain : ∀ location ∈ tree.objects.map Prod.fst, ∀ name ∈ location, Path.IsPlain name

theorem wellFormed_empty : WellFormed {} := ⟨List.nodup_nil, by simp⟩

theorem mem_locations_putObject :
    place ∈ (putObject location object objects).map Prod.fst ↔
      place = location ∨ place ∈ objects.map Prod.fst := by
  induction objects with
  | nil => simp [putObject]
  | cons first rest ih =>
    obtain ⟨own, old⟩ := first
    rw [putObject]
    split_ifs with hown
    · simp [hown]
    · rw [List.map_cons, List.mem_cons, ih, List.map_cons, List.mem_cons]
      exact or_left_comm

theorem nodup_locations_putObject (h : (objects.map Prod.fst).Nodup) :
    ((putObject location object objects).map Prod.fst).Nodup := by
  induction objects with
  | nil => simp [putObject]
  | cons first rest ih =>
    obtain ⟨own, old⟩ := first
    rw [List.map_cons, List.nodup_cons] at h
    rw [putObject]
    split_ifs with hown
    · rwa [List.map_cons, List.nodup_cons]
    · rw [List.map_cons, List.nodup_cons, mem_locations_putObject, not_or]
      exact ⟨⟨hown, h.1⟩, ih h.2⟩

/-- An object of a list with distinct locations is the one that is found at its location. -/
theorem lookup_eq_some_iff_mem (h : (objects.map Prod.fst).Nodup) :
    objects.lookup location = some object ↔ (location, object) ∈ objects := by
  rw [List.lookup_eq_some_iff]
  constructor
  · rintro ⟨before, after, rfl, -⟩
    simp
  · intro hmem
    obtain ⟨before, after, rfl⟩ := List.append_of_mem hmem
    refine ⟨before, after, rfl, fun entry hentry => bne_iff_ne.mpr ?_⟩
    rw [List.map_append, List.nodup_append] at h
    exact (h.2.2 entry.1 (List.mem_map_of_mem hentry) location (by simp)).symm

theorem fileName?_eq_some_iff {entry : Location × Object} :
    fileName? directory entry = some name ↔
      ∃ content, entry = (directory ++ [name], .file content) := by
  obtain ⟨place, object⟩ := entry
  cases object with
  | directory => simp [fileName?]
  | file content =>
    simp only [fileName?, Prod.mk.injEq, Object.file.injEq, exists_eq_right']
    constructor
    · intro h
      split_ifs at h with hplace
      rw [← hplace, List.dropLast_append_getLast? name h]
    · rintro rfl
      simp

namespace WellFormed

theorem put (h : tree.WellFormed) (hlocation : ∀ name ∈ location, Path.IsPlain name)
    (object : Object) : (tree.put location object).WellFormed := by
  refine ⟨nodup_locations_putObject h.nodup, fun place hplace => ?_⟩
  rcases mem_locations_putObject.mp hplace with rfl | hplace
  · exact hlocation
  · exact h.plain place hplace

theorem erase (h : tree.WellFormed) (location : Location) : (tree.erase location).WellFormed := by
  have hsub := (List.filter_sublist (l := tree.objects)
    (p := fun entry => !location.isPrefixOf entry.1)).map Prod.fst
  exact ⟨hsub.nodup h.nodup, fun place hplace => h.plain place (hsub.subset hplace)⟩

theorem plain_of_get? (h : tree.WellFormed) (hobject : tree.get? location = some object) :
    ∀ name ∈ location, Path.IsPlain name := by
  by_cases hroot : location = []
  · simp [hroot]
  · rw [← lookup_objects hroot, lookup_eq_some_iff_mem h.nodup] at hobject
    exact h.plain location (List.mem_map_of_mem hobject)

/-- The files right below a location are listed by their names. -/
theorem mem_fileNames_iff (h : tree.WellFormed) :
    name ∈ tree.fileNames directory ↔
      ∃ content, tree.get? (directory ++ [name]) = some (.file content) := by
  rw [fileNames_eq, List.mem_filterMap]
  simp only [fileName?_eq_some_iff, ← lookup_objects (List.concat_ne_nil name directory),
    lookup_eq_some_iff_mem h.nodup]
  constructor
  · rintro ⟨entry, hentry, content, rfl⟩
    exact ⟨content, hentry⟩
  · rintro ⟨content, hentry⟩
    exact ⟨_, hentry, content, rfl⟩

/-- No name is listed twice. -/
theorem nodup_fileNames (h : tree.WellFormed) (directory : Location) :
    (tree.fileNames directory).Nodup := by
  rw [fileNames_eq, List.Nodup, List.pairwise_filterMap]
  -- Two files of one name right below a location would be two objects at one location.
  refine (List.pairwise_map.mp h.nodup).imp fun hne name hname other hother hsame => hne ?_
  obtain ⟨content, rfl⟩ := fileName?_eq_some_iff.mp hname
  obtain ⟨content', rfl⟩ := fileName?_eq_some_iff.mp hother
  rw [hsame]

end WellFormed

end Tree

/-! ### Changes of well-formed trees -/

namespace Workspace

variable {w : Workspace} {path content : Text} {location : Location} {slash : Bool}

/-- Where something can be put, only plain names lead. -/
theorem wellFormed_put (h : w.tree.WellFormed)
    (htarget : w.target path = .ok (.entry location slash)) (object : Object) :
    (w.put location object).tree.WellFormed := by
  obtain ⟨before, name, slashes, start, -, hfields, hname, -, -, hstart, rfl⟩ :=
    exists_of_target htarget
  refine h.put (fun field hfield => ?_) object
  rcases List.mem_append.mp hfield with hfield | hfield
  · exact h.plain_of_get? hstart.2 field hfield
  · rw [List.mem_singleton.mp hfield]
    exact ⟨hname, Text.not_mem_of_mem_fields (by rw [hfields]; simp)⟩

theorem wellFormed_makeAll (h : w.tree.WellFormed) (paths : List Text) :
    (w.makeAll paths).1.tree.WellFormed := by
  refine makeAll_invariant (P := fun w => w.tree.WellFormed) h fun path _ w made hw hmake => ?_
  obtain ⟨location, slash, htarget, -, rfl⟩ := makeDirectory_eq_ok_iff.mp hmake
  exact wellFormed_put hw htarget .directory

theorem wellFormed_of_write {written : Workspace} (h : w.tree.WellFormed)
    (hwrite : w.write path content = .ok written) : written.tree.WellFormed := by
  obtain ⟨location, htarget, -, rfl⟩ := write_eq_ok_iff.mp hwrite
  exact wellFormed_put h htarget _

theorem wellFormed_store (h : w.tree.WellFormed) (path : Text) (content : Content) :
    (w.store path content).tree.WellFormed := by
  have hmade := wellFormed_makeAll h (Path.ancestors path).tail
  rw [store]
  dsimp only
  split
  · rename_i location htarget
    exact wellFormed_put hmade htarget _
  · exact hmade

theorem wellFormed_remove (h : w.tree.WellFormed) (path : Text) :
    (w.remove path).tree.WellFormed := by
  rw [remove]
  split
  · exact h.erase _
  · exact h

end Workspace

/-! ### Plain names -/

namespace Path

theorem extension?_eq_some_iff {name extension : Text} (hname : IsPlain name)
    (h : '.' ∉ extension) :
    extension? name = some extension ↔ ∃ stem, stem ≠ [] ∧ name = stem ++ '.' :: extension := by
  have hlast := lastField_of_not_mem hname.2
  rw [extension?_eq (by rw [hlast]; exact hname.1), hlast]
  simp only [← splitExtension_eq_iff h]
  constructor
  · exact fun hextension => ⟨_, Prod.ext rfl hextension⟩
  · rintro ⟨stem, hsplit⟩
    rw [hsplit]

/-! ### Walks along components -/

/-- Where a component leads from a location, whatever stands there. -/
def Component.walk (location : Location) : Component → Location
  | root => []
  | here => location
  | up => location.dropLast
  | name text => location ++ [text]

theorem IsPlain.isAbsolute {name : Text} (h : IsPlain name) : isAbsolute name = false := by
  cases name with
  | nil => rfl
  | cons c rest =>
    have hslash : c ≠ '/' := fun hc => h.2 (hc ▸ List.mem_cons_self)
    simpa [Path.isAbsolute] using hslash

theorem IsPlain.lastField_join {name : Text} (h : IsPlain name) (base : Text) :
    lastField (join base name) = name := by
  rw [Path.lastField_join, lastField_of_not_mem h.2]

end Path

namespace Tree

variable {tree : Tree} {location next start stop : Location} {field : Text} {fields : List Text}

theorem eq_walk_of_step (h : tree.step location field = .ok next) :
    next = (Path.component? field).toList.foldl Path.Component.walk location := by
  have hdirectory := directory_of_step h
  rw [step, hdirectory] at h
  dsimp only at h
  rw [Path.component?]
  split_ifs at h ⊢
  · exact (Except.ok.inj h).symm
  · exact (Except.ok.inj h).symm
  · exact (Except.ok.inj h).symm

theorem eq_walk_of_follow (h : tree.follow start fields = .ok stop) :
    stop = (fields.filterMap Path.component?).foldl Path.Component.walk start := by
  induction fields generalizing start with
  | nil => exact (Except.ok.inj h).symm
  | cons field rest ih =>
    obtain ⟨next, hstep, hrest⟩ := follow_cons_iff.mp h
    rw [ih hrest, eq_walk_of_step hstep, ← List.foldl_append]
    cases hfield : Path.component? field <;> simp [hfield]

end Tree

namespace Workspace

variable {w : Workspace} {base name : Text} {directory location : Location}

/-- A path that leads somewhere leads to the end of the walk along its components. -/
theorem eq_walk_of_resolve {path : Text} (h : w.resolve path = .ok location) :
    location = (Path.components path).foldl Path.Component.walk w.directory := by
  obtain ⟨-, hfollow⟩ := resolve_eq_ok_iff.mp h
  rw [Tree.eq_walk_of_follow hfollow, Workspace.base, Path.components]
  split_ifs <;> rfl

/-- Paths with the same components lead to the same location, if both lead somewhere. -/
theorem resolve_eq_of_same {a b : Text} {location' : Location} (hsame : Path.same a b = true)
    (ha : w.resolve a = .ok location) (hb : w.resolve b = .ok location') :
    location = location' := by
  rw [Path.same, decide_eq_true_eq] at hsame
  rw [eq_walk_of_resolve ha, eq_walk_of_resolve hb, hsame]

/-! ### Names in a directory -/

theorem follow_front (h : w.resolve base = .ok directory) :
    w.tree.follow (w.base base) (Path.front base) = .ok directory := by
  obtain ⟨hbase, hfollow⟩ := resolve_eq_ok_iff.mp h
  rcases Path.fields_eq_front_or hbase with hfront | hfront
  · rwa [hfront] at hfollow
  · rw [hfront, Tree.follow_append_iff] at hfollow
    obtain ⟨middle, hmiddle, hslash⟩ := hfollow
    rw [Tree.follow_singleton] at hslash
    obtain rfl : directory = middle := Tree.eq_walk_of_step hslash
    exact hmiddle

theorem regularFiles_of_directory (hbase : w.resolve base = .ok directory)
    (hdirectory : w.tree.get? directory = some .directory) :
    w.regularFiles base = .ok ((w.tree.fileNames directory).map (Path.join base)) := by
  simp only [regularFiles, hbase, hdirectory]

section Join

variable (hname : Path.IsPlain name) (hbase : w.resolve base = .ok directory)
  (hdirectory : w.tree.get? directory = some .directory)

include hname hbase hdirectory

/-- A name that is joined to a path leads to what stands under it. -/
theorem resolve_join_iff :
    w.resolve (Path.join base name) = .ok location ↔
      (w.tree.get? (directory ++ [name])).isSome ∧ location = directory ++ [name] := by
  have hne : Path.join base name ≠ [] := by
    intro hempty
    have hlast := hname.lastField_join base
    rw [hempty] at hlast
    exact hname.1.1 hlast.symm
  rw [resolve_eq_ok_iff, Path.fields_join hname.isAbsolute, base_join hname.isAbsolute,
    Text.fields_of_not_mem hname.2, Tree.follow_append_iff]
  simp only [follow_front hbase, Except.ok.injEq, exists_eq_left', Tree.follow_singleton,
    Tree.step_name_iff hname.1, hdirectory, true_and]
  exact and_iff_right hne

theorem object_join_iff {object : Object} :
    w.object (Path.join base name) = .ok object ↔
      w.tree.get? (directory ++ [name]) = some object := by
  rw [object_eq_ok_iff]
  simp only [resolve_join_iff hname hbase hdirectory]
  constructor
  · rintro ⟨location, ⟨-, rfl⟩, hobject⟩
    exact hobject
  · intro hobject
    exact ⟨_, ⟨by simp [hobject], rfl⟩, hobject⟩

end Join

end Workspace

end Phrasebook.Files
