import Phrasebook.Files.Tree
import Mathlib.Tactic.SplitIfs

/-!
# Writing files

Whether a file can be written depends on the directories of a workspace alone, and to write a file
neither makes a directory nor takes one away. So files can be written one after the other if and
only if each of them can be written at the start, and their order does not matter.
-/

namespace Phrasebook.Files

namespace Tree

theorem lookup_putObject (location place : Location) (object : Object)
    (objects : List (Location × Object)) :
    (putObject location object objects).lookup place =
      if place = location then some object else objects.lookup place := by
  induction objects with
  | nil =>
    rw [putObject, List.lookup_cons]
    by_cases hplace : place = location
    · simp [hplace]
    · rw [beq_false_of_ne hplace, if_neg hplace]
  | cons first rest ih =>
    obtain ⟨own, old⟩ := first
    rw [putObject]
    by_cases hown : own = location
    · rw [if_pos hown, List.lookup_cons, List.lookup_cons, hown]
      by_cases hplace : place = location
      · simp [hplace]
      · rw [beq_false_of_ne hplace, if_neg hplace]
    · rw [if_neg hown, List.lookup_cons, List.lookup_cons, ih]
      by_cases hplace : place = location
      · rw [hplace, beq_false_of_ne (Ne.symm hown), if_pos rfl]
      · rw [if_neg hplace, if_neg hplace]

/-- An object that is put at a location is found there, except at the root. -/
theorem get?_put (tree : Tree) (location place : Location) (object : Object) :
    (tree.put location object).get? place =
      if place = location ∧ place ≠ [] then some object else tree.get? place := by
  rw [put, get?, get?, lookup_putObject]
  by_cases hroot : place = []
  · simp [hroot]
  · simp [hroot]

/-- Two trees have their directories at the same locations. -/
def SameDirectories (a b : Tree) : Prop :=
  ∀ location, a.get? location = some .directory ↔ b.get? location = some .directory

/-- Fields lead from a location to a directory. -/
def LeadsToDirectory (tree : Tree) (start : Location) (fields : List Text) (stop : Location) :
    Prop :=
  tree.follow start fields = .ok stop ∧ tree.get? stop = some .directory

/-- Only a directory leads to another one. -/
theorem LeadsToDirectory.start {tree : Tree} {start stop : Location} {fields : List Text}
    (h : tree.LeadsToDirectory start fields stop) : tree.get? start = some .directory := by
  obtain ⟨hfollow, hstop⟩ := h
  cases fields with
  | nil =>
    obtain rfl : start = stop := by simpa [follow] using hfollow
    exact hstop
  | cons field rest =>
    rw [follow, step] at hfollow
    cases hobject : tree.get? start with
    | none => simp [hobject] at hfollow
    | some object =>
      cases object with
      | file content => simp [hobject] at hfollow
      | directory => rfl

/-- What fields lead to depends on the directories alone. -/
theorem SameDirectories.leadsToDirectory {a b : Tree} (h : a.SameDirectories b)
    {start stop : Location} {fields : List Text} (hlead : a.LeadsToDirectory start fields stop) :
    b.LeadsToDirectory start fields stop := by
  induction fields generalizing start with
  | nil => exact ⟨hlead.1, (h stop).mp hlead.2⟩
  | cons field rest ih =>
    have hstart := hlead.start
    obtain ⟨hfollow, hstop⟩ := hlead
    rw [follow] at hfollow
    cases hstep : a.step start field with
    | error fault => simp [hstep] at hfollow
    | ok next =>
      rw [hstep] at hfollow
      have hnext : a.LeadsToDirectory next rest stop := ⟨hfollow, hstop⟩
      have hrest := ih hnext
      refine ⟨?_, hrest.2⟩
      have hstep' : b.step start field = .ok next := by
        rw [step, hstart] at hstep
        rw [step, (h start).mp hstart]
        dsimp only at hstep ⊢
        split_ifs at hstep ⊢ with hhere hup habsent hpresent
        · exact hstep
        · exact hstep
        · exact hstep
        · obtain rfl : start ++ [field] = next := by simpa using hstep
          simp [hrest.start] at habsent
      rw [follow, hstep']
      exact hrest.1

theorem SameDirectories.symm {a b : Tree} (h : a.SameDirectories b) : b.SameDirectories a :=
  fun location => (h location).symm

/-- A file in the place of what is no directory changes no directory. -/
theorem sameDirectories_put {tree : Tree} {location : Location}
    (h : tree.get? location ≠ some .directory) (content : Content) :
    tree.SameDirectories (tree.put location (.file content)) := by
  intro place
  rw [get?_put]
  split_ifs with hplace
  · simp [hplace.1, h]
  · rfl

end Tree

namespace Workspace

/-- Two workspaces have the same directories, and the same one to work in. -/
structure SameDirectories (a b : Workspace) : Prop where
  directory : a.directory = b.directory
  tree : a.tree.SameDirectories b.tree

theorem SameDirectories.symm {a b : Workspace} (h : a.SameDirectories b) : b.SameDirectories a :=
  ⟨h.directory.symm, h.tree.symm⟩

theorem SameDirectories.trans {a b c : Workspace} (hab : a.SameDirectories b)
    (hbc : b.SameDirectories c) : a.SameDirectories c :=
  ⟨hab.directory.trans hbc.directory, fun location => (hab.tree location).trans (hbc.tree location)⟩

/-- A path ends with a name in a directory, and no directory stands under that name. -/
def Writable (w : Workspace) (path : Text) : Prop :=
  ∃ location, w.target path = .ok (.entry location false) ∧
    w.tree.get? location ≠ some .directory

/-- A path that ends with a name in a directory does so wherever the same directories are. -/
theorem SameDirectories.target {a b : Workspace} (h : a.SameDirectories b) {path : Text}
    {location : Location} {slash : Bool} (htarget : a.target path = .ok (.entry location slash)) :
    b.target path = .ok (.entry location slash) := by
  have hbase : b.base path = a.base path := by rw [base, base, h.directory]
  rw [Workspace.target] at htarget ⊢
  split_ifs at htarget ⊢ with hempty
  dsimp only at htarget ⊢
  split at htarget
  · simp at htarget
  · rename_i last before hfields
    cases hfollow : a.tree.follow (a.base path) before.reverse with
    | error fault => simp [hfollow] at htarget
    | ok stop =>
      rw [hfollow] at htarget
      dsimp only at htarget
      split at htarget
      · simp at htarget
      · simp at htarget
      · rename_i hstop
        obtain ⟨hfollow', hstop'⟩ := h.tree.leadsToDirectory ⟨hfollow, hstop⟩
        rw [hbase, hfollow']
        dsimp only
        rw [hstop']
        exact htarget

/-- What is writable depends on the directories alone. -/
theorem SameDirectories.writable {a b : Workspace} (h : a.SameDirectories b) {path : Text}
    (hwritable : a.Writable path) : b.Writable path := by
  obtain ⟨location, htarget, hlocation⟩ := hwritable
  exact ⟨location, h.target htarget, fun hdirectory => hlocation ((h.tree location).mpr hdirectory)⟩

/-- Writing puts a file where a path is writable, and fails elsewhere. -/
theorem write_eq_ok_iff {w written : Workspace} {path content : Text} :
    w.write path content = .ok written ↔
      ∃ location, w.target path = .ok (.entry location false) ∧
        w.tree.get? location ≠ some .directory ∧
        written = w.put location (.file (.text content)) := by
  rw [write]
  cases htarget : w.target path with
  | error fault => simp
  | ok found =>
    cases found with
    | existing => simp
    | entry location slash =>
      cases slash with
      | true => simp
      | false =>
        cases hobject : w.tree.get? location with
        | none => simp [hobject, eq_comm]
        | some object => cases object <;> simp [hobject, eq_comm]

theorem exists_write_iff {w : Workspace} {path content : Text} :
    (∃ written, w.write path content = .ok written) ↔ w.Writable path := by
  simp only [write_eq_ok_iff, Writable]
  constructor
  · rintro ⟨_, location, htarget, hlocation, -⟩
    exact ⟨location, htarget, hlocation⟩
  · rintro ⟨location, htarget, hlocation⟩
    exact ⟨_, location, htarget, hlocation, rfl⟩

/-- Writing keeps the directories. -/
theorem sameDirectories_of_write {w written : Workspace} {path content : Text}
    (h : w.write path content = .ok written) : w.SameDirectories written := by
  obtain ⟨location, -, hlocation, rfl⟩ := write_eq_ok_iff.mp h
  exact ⟨rfl, Tree.sameDirectories_put hlocation _⟩

end Workspace

end Phrasebook.Files
