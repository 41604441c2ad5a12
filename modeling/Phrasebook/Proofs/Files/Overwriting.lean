import Phrasebook.Proofs.Files.Changes
import Mathlib.Data.List.Basic
import Mathlib.Data.List.Induction
import Mathlib.Tactic.SplitIfs

/-!
# Overwriting files

A file that is written in the place of another one takes its place in the tree, and a new file comes
after all others. So if files are written one after the other, the last text under a location stays,
and to write all of them again changes nothing at all, also if some of them have the same location.
Likewise a directory that is there is not made again.
-/

namespace Phrasebook.Files

namespace Tree

/-! ### Objects in place of others -/

section Objects

variable {location place : Location} {objects : List (Location × Object)}

theorem putObject_of_lookup_eq_none (h : objects.lookup location = none) (object : Object) :
    putObject location object objects = objects ++ [(location, object)] := by
  induction objects with
  | nil => rfl
  | cons first rest ih =>
    obtain ⟨own, old⟩ := first
    rw [List.lookup_cons] at h
    by_cases hown : own = location
    · simp [hown] at h
    · rw [beq_false_of_ne (Ne.symm hown)] at h
      rw [putObject, if_neg hown, ih h, List.cons_append]

theorem putObject_putObject (location : Location) (first second : Object)
    (objects : List (Location × Object)) :
    putObject location second (putObject location first objects) =
      putObject location second objects := by
  induction objects with
  | nil => simp [putObject]
  | cons head rest ih =>
    obtain ⟨own, old⟩ := head
    by_cases hown : own = location
    · simp [putObject, hown]
    · simp [putObject, hown, ih]

/-- Objects at two locations can be put in either order if there is one already at one of them. -/
theorem putObject_comm (hne : location ≠ place) (hthere : (objects.lookup location).isSome)
    (object other : Object) :
    putObject location object (putObject place other objects) =
      putObject place other (putObject location object objects) := by
  induction objects with
  | nil => simp at hthere
  | cons head rest ih =>
    obtain ⟨own, old⟩ := head
    by_cases hlocation : own = location
    · subst hlocation
      simp [putObject, hne]
    · by_cases hplace : own = place
      · subst hplace
        simp [putObject, hlocation]
      · rw [List.lookup_cons, beq_false_of_ne (Ne.symm hlocation)] at hthere
        simp [putObject, hlocation, hplace, ih hthere]

end Objects

variable {tree : Tree} {location place : Location}

/-- Something is listed at a location, where it can be replaced. -/
def Lists (tree : Tree) (location : Location) : Prop := (tree.objects.lookup location).isSome

theorem lists_put_self (tree : Tree) (location : Location) (object : Object) :
    (tree.put location object).Lists location := by
  simp [Lists, put, lookup_putObject]

theorem Lists.put (h : tree.Lists place) (location : Location) (object : Object) :
    (tree.put location object).Lists place := by
  rw [Lists, Tree.put, lookup_putObject]
  split_ifs
  · rfl
  · exact h

theorem put_put (tree : Tree) (location : Location) (first second : Object) :
    (tree.put location first).put location second = tree.put location second :=
  congrArg Tree.mk (putObject_putObject location first second tree.objects)

theorem put_comm (hne : location ≠ place) (hthere : tree.Lists location) (object other : Object) :
    (tree.put place other).put location object = (tree.put location object).put place other :=
  congrArg Tree.mk (putObject_comm hne hthere object other)

theorem lookup_objects (hlocation : location ≠ []) :
    tree.objects.lookup location = tree.get? location := by
  rw [get?, if_neg hlocation]

/-! ### Texts in files -/

/-- The tree with texts in files at locations, one after the other. -/
def putTexts (tree : Tree) (files : List (Location × Text)) : Tree :=
  files.foldl (fun tree file => tree.put file.1 (.file (.text file.2))) tree

section Texts

variable {files : List (Location × Text)}

theorem putTexts_cons (tree : Tree) (file : Location × Text) (files : List (Location × Text)) :
    tree.putTexts (file :: files) = (tree.put file.1 (.file (.text file.2))).putTexts files := rfl

theorem putTexts_append (tree : Tree) (first second : List (Location × Text)) :
    tree.putTexts (first ++ second) = (tree.putTexts first).putTexts second :=
  List.foldl_append

theorem Lists.putTexts (h : tree.Lists place) (files : List (Location × Text)) :
    (tree.putTexts files).Lists place := by
  induction files generalizing tree with
  | nil => exact h
  | cons file files ih => exact ih (h.put _ _)

theorem lists_putTexts {file : Location × Text} (h : file ∈ files) :
    (tree.putTexts files).Lists file.1 := by
  induction files generalizing tree with
  | nil => simp at h
  | cons first rest ih =>
    rw [putTexts_cons]
    rcases List.mem_cons.mp h with rfl | hrest
    · exact (lists_put_self tree file.1 _).putTexts rest
    · exact ih hrest

/-- What is put at a location at the end need not be put there before. -/
theorem put_putTexts_put (h : ∀ file ∈ files, tree.Lists file.1) (location : Location)
    (object : Object) :
    ((tree.put location object).putTexts files).put location object =
      (tree.putTexts files).put location object := by
  induction files generalizing tree with
  | nil => exact put_put tree location object object
  | cons file files ih =>
    obtain ⟨hfile, hfiles⟩ := List.forall_mem_cons.mp h
    rw [putTexts_cons, putTexts_cons]
    by_cases hsame : file.1 = location
    · rw [hsame, put_put]
    · rw [put_comm hsame hfile]
      exact ih fun file hmem => (hfiles file hmem).put _ _

/-- To write files again changes nothing. -/
theorem putTexts_putTexts (tree : Tree) (files : List (Location × Text)) :
    (tree.putTexts files).putTexts files = tree.putTexts files := by
  -- The last file is put at the end of both rounds, so the first round can do without it.
  induction files using List.reverseRecOn with
  | nil => rfl
  | append_singleton files file ih =>
    have hlists : ∀ earlier ∈ files, (tree.putTexts files).Lists earlier.1 :=
      fun earlier hearlier => lists_putTexts hearlier
    calc (tree.putTexts (files ++ [file])).putTexts (files ++ [file])
        = (((tree.putTexts files).put file.1 (.file (.text file.2))).putTexts files).put file.1
            (.file (.text file.2)) := by simp only [putTexts_append]; rfl
      _ = ((tree.putTexts files).putTexts files).put file.1 (.file (.text file.2)) :=
          put_putTexts_put hlists _ _
      _ = tree.putTexts (files ++ [file]) := by rw [ih, putTexts_append]; rfl

theorem get?_putTexts_of_forall {text : Text}
    (hthere : tree.get? location = some (.file (.text text)))
    (h : ∀ file ∈ files, file.1 = location → file.2 = text) :
    (tree.putTexts files).get? location = some (.file (.text text)) := by
  induction files generalizing tree with
  | nil => exact hthere
  | cons file files ih =>
    obtain ⟨hfile, hfiles⟩ := List.forall_mem_cons.mp h
    rw [putTexts_cons]
    refine ih ?_ hfiles
    rw [get?_put]
    split_ifs with hplace
    · rw [hfile hplace.1.symm]
    · exact hthere

/-- The last text under a location stays. -/
theorem get?_putTexts_of_last (hlocation : location ≠ []) {before after : List (Location × Text)}
    {text : Text} (h : ∀ file ∈ after, file.1 = location → file.2 = text) :
    (tree.putTexts (before ++ (location, text) :: after)).get? location =
      some (.file (.text text)) := by
  rw [putTexts_append, putTexts_cons]
  refine get?_putTexts_of_forall ?_ h
  simp [get?_put, hlocation]

end Texts

/-! ### Names of files -/

/-- The name of a file right below a directory. -/
def fileName? (directory : Location) : Location × Object → Option Text
  | (place, .file _) => if place.dropLast = directory then place.getLast? else none
  | (_, .directory) => none

theorem fileNames_eq (tree : Tree) (directory : Location) :
    tree.fileNames directory = tree.objects.filterMap (fileName? directory) := by
  rw [fileNames]
  congr 1
  funext entry
  obtain ⟨place, object⟩ := entry
  cases object <;> rfl

theorem fileNames_put_directory (h : tree.objects.lookup location = none) (directory : Location) :
    (tree.put location .directory).fileNames directory = tree.fileNames directory := by
  rw [fileNames_eq, fileNames_eq, put, putObject_of_lookup_eq_none h, List.filterMap_append]
  simp [fileName?]

/-- A file in the place of another one has its name. -/
theorem filterMap_fileName?_putObject {objects : List (Location × Object)} {old : Content}
    (h : objects.lookup location = some (.file old)) (content : Content) (directory : Location) :
    (putObject location (.file content) objects).filterMap (fileName? directory) =
      objects.filterMap (fileName? directory) := by
  induction objects with
  | nil => simp at h
  | cons first rest ih =>
    obtain ⟨own, object⟩ := first
    rw [List.lookup_cons] at h
    by_cases hown : own = location
    · obtain rfl : object = .file old := by simpa [hown] using h
      rw [putObject, if_pos hown]
      rfl
    · rw [beq_false_of_ne (Ne.symm hown)] at h
      rw [putObject, if_neg hown, List.filterMap_cons, List.filterMap_cons, ih h]

theorem exists_fileNames_put (h : tree.objects.lookup location ≠ some .directory)
    (content : Content) (directory : Location) :
    ∃ names, (tree.put location (.file content)).fileNames directory =
        tree.fileNames directory ++ names ∧
      ∀ name ∈ names, location = directory ++ [name] := by
  rw [fileNames_eq, fileNames_eq, put]
  cases hold : tree.objects.lookup location with
  | none =>
    refine ⟨[(location, .file content)].filterMap (fileName? directory), ?_, fun name hname => ?_⟩
    · rw [putObject_of_lookup_eq_none hold, List.filterMap_append]
    · simp only [List.mem_filterMap, List.mem_singleton, exists_eq_left, fileName?] at hname
      split_ifs at hname with hdirectory
      rw [← hdirectory]
      exact (List.dropLast_append_getLast? name hname).symm
  | some object =>
    cases object with
    | directory => exact absurd hold h
    | file old =>
      refine ⟨[], ?_, by simp⟩
      rw [filterMap_fileName?_putObject hold, List.append_nil]

/-- New names come after those that are there. -/
theorem exists_fileNames_putTexts {files : List (Location × Text)}
    (h : ∀ file ∈ files, tree.objects.lookup file.1 ≠ some .directory) (directory : Location) :
    ∃ names, (tree.putTexts files).fileNames directory = tree.fileNames directory ++ names ∧
      ∀ name ∈ names, directory ++ [name] ∈ files.map Prod.fst := by
  induction files generalizing tree with
  | nil => exact ⟨[], by simp [putTexts], by simp⟩
  | cons file files ih =>
    obtain ⟨hfile, hfiles⟩ := List.forall_mem_cons.mp h
    obtain ⟨first, hfirst, hplace⟩ := exists_fileNames_put hfile (.text file.2) directory
    have hrest : ∀ other ∈ files,
        (tree.put file.1 (.file (.text file.2))).objects.lookup other.1 ≠ some .directory := by
      intro other hother
      rw [put, lookup_putObject]
      split_ifs
      · simp
      · exact hfiles other hother
    obtain ⟨names, hnames, hplaces⟩ := ih hrest
    refine ⟨first ++ names, ?_, fun name hname => ?_⟩
    · rw [putTexts_cons, hnames, hfirst, List.append_assoc]
    · rw [List.map_cons, List.mem_cons]
      rcases List.mem_append.mp hname with hname | hname
      · exact .inl (hplace name hname).symm
      · exact .inr (hplaces name hname)

end Tree

namespace Workspace

variable {w a b : Workspace} {path : Text} {location : Location}

/-! ### Places of files -/

/-- The location of the last name of a path. -/
def place (w : Workspace) (path : Text) : Location :=
  match w.target path with
  | .ok (.entry location _) => location
  | _ => []

/-- The workspace with texts in files at locations, one after the other. -/
def putTexts (w : Workspace) (files : List (Location × Text)) : Workspace :=
  { w with tree := w.tree.putTexts files }

theorem place_eq {slash : Bool} (h : w.target path = .ok (.entry location slash)) :
    w.place path = location := by
  rw [place, h]

theorem Writable.target_eq (h : w.Writable path) :
    w.target path = .ok (.entry (w.place path) false) := by
  obtain ⟨location, htarget, -⟩ := h
  rw [place_eq htarget, htarget]

theorem Writable.get?_ne (h : w.Writable path) :
    w.tree.get? (w.place path) ≠ some .directory := by
  obtain ⟨location, htarget, hlocation⟩ := h
  rwa [place_eq htarget]

theorem Writable.write (h : w.Writable path) (content : Text) :
    w.write path content = .ok (w.put (w.place path) (.file (.text content))) :=
  write_eq_ok_iff.mpr ⟨_, h.target_eq, h.get?_ne, rfl⟩

theorem SameDirectories.place (h : a.SameDirectories b) (hwritable : a.Writable path) :
    b.place path = a.place path :=
  place_eq (h.target hwritable.target_eq)

/-! ### Making directories again -/

/-- What is there is not made again. -/
theorem makeDirectory_of_resolve (h : w.resolve path = .ok location) :
    w.makeDirectory path = .error .alreadyExists := by
  obtain ⟨hpath, hfollow⟩ := resolve_eq_ok_iff.mp h
  rw [makeDirectory, target, if_neg (by simpa using hpath)]
  dsimp only
  cases hfields : (Text.fields '/' path).reverse.dropWhile List.isEmpty with
  | nil => rfl
  | cons name before =>
    obtain ⟨slashes, hsplit, hname, -, -⟩ := exists_slashes hfields
    rw [hsplit, Tree.follow_append_iff] at hfollow
    obtain ⟨start, hbefore, hrest⟩ := hfollow
    obtain ⟨next, hstep, -⟩ := Tree.follow_cons_iff.mp hrest
    dsimp only
    rw [hbefore]
    dsimp only
    rw [Tree.directory_of_step hstep]
    dsimp only
    by_cases hdots : name = "." ∨ name = ".."
    · rw [if_pos hdots]
    · rw [if_neg hdots]
      dsimp only
      rw [if_pos ((Tree.step_name_iff ⟨hname, not_or.mp hdots⟩).mp hstep).2.1]

theorem isDirectory_iff :
    w.isDirectory path = true ↔
      ∃ location, w.resolve path = .ok location ∧ w.tree.get? location = some .directory := by
  rw [← object_eq_ok_iff, isDirectory]
  split
  · simp_all
  · simp_all

theorem isDirectory_of_makeDirectory {made : Workspace} (h : w.makeDirectory path = .ok made) :
    made.isDirectory path = true := by
  have htouches := touches_of_makeDirectory h
  obtain ⟨location, slash, htarget, -, rfl⟩ := makeDirectory_eq_ok_iff.mp h
  have hthere : (w.put location .directory).tree.get? location = some .directory := by
    simpa using get?_put_eq_or w (ne_nil_of_target htarget) .directory location
  exact isDirectory_iff.mpr
    ⟨location, resolve_of_target htarget rfl htouches.grows hthere fun _ => rfl, hthere⟩

/-- A path that is made with what is above it is a directory then. -/
theorem isDirectory_of_makeAll {above : List Text}
    (h : (w.makeAll (path :: above)).2 = .ok ()) :
    (w.makeAll (path :: above)).1.isDirectory path = true := by
  rw [makeAll] at h ⊢
  cases hmake : w.makeDirectory path with
  | ok made => exact isDirectory_of_makeDirectory hmake
  | error fault =>
    rw [hmake] at h
    cases fault with
    | notFound =>
      dsimp only at h ⊢
      rcases hall : w.makeAll above with ⟨made, result⟩
      rw [hall] at h
      cases result with
      | error fault => simp at h
      | ok _ =>
        dsimp only at h ⊢
        cases hagain : made.makeDirectory path with
        | ok last => exact isDirectory_of_makeDirectory hagain
        | error fault =>
          rw [hagain] at h
          have hboth : fault = .alreadyExists ∧ made.isDirectory path = true := by simpa using h
          exact hboth.2
    | alreadyExists => simpa using h
    | _ => simp at h

/-- Directories that are there are not made again, also after other changes. -/
theorem makeDirectories_again (h : (w.makeDirectories path).2 = .ok ())
    (hdirectory : b.directory = (w.makeDirectories path).1.directory)
    (hgrows : (w.makeDirectories path).1.tree.Grows b.tree) :
    b.makeDirectories path = (b, .ok ()) := by
  rw [makeDirectories] at h hdirectory hgrows ⊢
  cases hpaths : Path.ancestors path with
  | nil => rfl
  | cons first above =>
    rw [hpaths] at h hdirectory hgrows
    obtain ⟨location, hresolve, hthere⟩ := isDirectory_iff.mp (isDirectory_of_makeAll h)
    have hresolve' := resolve_of_grows hdirectory hgrows hresolve
    have hstill : b.isDirectory first = true :=
      isDirectory_iff.mpr ⟨location, hresolve', hgrows.directory hthere⟩
    rw [makeAll, makeDirectory_of_resolve hresolve']
    simp [hstill]

/-- To make directories changes no file. -/
theorem fileNames_makeDirectories (w : Workspace) (path : Text) (directory : Location) :
    (w.makeDirectories path).1.tree.fileNames directory = w.tree.fileNames directory := by
  refine makeAll_invariant
    (P := fun made => made.tree.fileNames directory = w.tree.fileNames directory) rfl ?_
  intro path _ before made hbefore hmake
  obtain ⟨location, slash, htarget, habsent, rfl⟩ := makeDirectory_eq_ok_iff.mp hmake
  rw [← hbefore]
  refine Tree.fileNames_put_directory ?_ directory
  rw [Tree.lookup_objects (ne_nil_of_target htarget), habsent]

end Workspace

end Phrasebook.Files
