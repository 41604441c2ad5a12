import Phrasebook.Proofs.Files.Changes
import Phrasebook.Proofs.Text.Fields
import Mathlib.Data.List.Basic
import Mathlib.Tactic.NthRewrite

/-!
# Last names of paths

What a path leads to is called by the last field of the path, unless that field is empty or dots.
Joining a path to another one keeps its last field, and so does following it. So two paths with
different last fields never lead to the same file, wherever they start and whatever is in front.
-/

namespace Phrasebook

namespace Files

namespace Path

variable {path base field : Text}

/-! ### Last fields -/

/-- What stands behind the last slash of a path. -/
def lastField (path : Text) : Text := (Text.fields '/' path).getLastD []

theorem lastField_eq {before : List Text} (h : Text.fields '/' path = before ++ [field]) :
    lastField path = field := by
  rw [lastField, h]
  simp

theorem exists_fields_eq (path : Text) :
    ∃ before, Text.fields '/' path = before ++ [lastField path] := by
  obtain ⟨before, last, hfields⟩ :=
    (List.eq_nil_or_concat _).resolve_left (Text.fields_ne_nil '/' path)
  rw [List.concat_eq_append] at hfields
  exact ⟨before, by rw [lastField_eq hfields, hfields]⟩

theorem slash_not_mem_lastField (path : Text) : '/' ∉ lastField path := by
  obtain ⟨before, hfields⟩ := exists_fields_eq path
  exact Text.not_mem_of_mem_fields (by rw [hfields]; simp)

theorem lastField_of_not_mem (h : '/' ∉ path) : lastField path = path :=
  @lastField_eq path path [] (Text.fields_of_not_mem h)

theorem lastField_append (path : Text) {ending : Text} (h : '/' ∉ ending) :
    lastField (path ++ ending) = lastField path ++ ending := by
  obtain ⟨before, last, hfields, happend⟩ := Text.exists_fields_append path h
  rw [lastField_eq hfields, lastField_eq happend]

/-- The fields in front of a path that is joined to another one. -/
def front (base : Text) : List Text :=
  if base.isEmpty then []
  else if base.getLast? = some '/' then Text.fields '/' base.dropLast
  else Text.fields '/' base

/-- A path that ends with a slash has an empty field behind the others. -/
theorem fields_eq_front_or (h : base ≠ []) :
    Text.fields '/' base = front base ∨ Text.fields '/' base = front base ++ [[]] := by
  rw [front, if_neg (by simpa using h)]
  split_ifs with hslash
  · right
    conv_lhs => rw [← List.dropLast_append_getLast? '/' hslash]
    rw [Text.fields_append_cons]
    rfl
  · exact .inl rfl

theorem fields_join (h : isAbsolute path = false) :
    Text.fields '/' (join base path) = front base ++ Text.fields '/' path := by
  rw [join, h, front]
  by_cases hempty : base = []
  · simp [hempty]
  · by_cases hslash : base.getLast? = some '/'
    · have hsplit : base ++ path = base.dropLast ++ '/' :: path := by
        nth_rewrite 1 [← List.dropLast_append_getLast? '/' hslash]
        simp
      simp [hempty, hslash, hsplit, Text.fields_append_cons]
    · simp [hempty, hslash, Text.fields_append_cons]

theorem isAbsolute_join (h : isAbsolute path = false) :
    isAbsolute (join base path) = isAbsolute base := by
  rw [join, h]
  cases base with
  | nil => simpa [isAbsolute] using h
  | cons c rest =>
    simp only [Bool.false_eq_true, if_false]
    split_ifs <;> rfl

theorem lastField_join (base path : Text) : lastField (join base path) = lastField path := by
  obtain ⟨before, hfields⟩ := exists_fields_eq path
  cases habsolute : isAbsolute path with
  | true => rw [join, habsolute, if_pos rfl]
  | false =>
    apply lastField_eq
    rw [fields_join habsolute, hfields, ← List.append_assoc]

/-! ### Names -/

theorem isName_of_length (h : 2 < field.length) : IsName field := by
  refine ⟨?_, ?_, ?_⟩ <;> rintro rfl <;> simp at h

theorem fileName?_eq (h : IsName (lastField path)) : fileName? path = some (lastField path) := by
  obtain ⟨hempty, hhere, hup⟩ := h
  obtain ⟨before, hfields⟩ := exists_fields_eq path
  have hlast : component? (lastField path) = some (.name (lastField path)) := by
    rw [component?, if_neg, if_neg hup]
    rw [Bool.or_eq_true, List.isEmpty_iff, decide_eq_true_iff, not_or]
    exact ⟨hempty, hhere⟩
  have hinner : (Text.fields '/' path).filterMap component? =
      before.filterMap component? ++ [.name (lastField path)] := by
    rw [hfields, List.filterMap_append, List.filterMap_cons_some hlast, List.filterMap_nil]
  have hcomponents : (components path).getLast? = some (.name (lastField path)) := by
    rw [components, hinner]
    split_ifs
    · rw [← List.cons_append, List.getLast?_concat]
    · rw [← List.cons_append, List.getLast?_concat]
    · rw [List.getLast?_concat]
  rw [fileName?, hcomponents]

/-- The extension of a path is that of its last field. -/
theorem extension?_eq (h : IsName (lastField path)) :
    extension? path = (splitExtension (lastField path)).2 := by
  rw [extension?, fileName?_eq h]
  rfl

/-- A name has an extension if there is something in front of it. -/
theorem splitExtension_eq_iff {name stem extension : Text} (h : '.' ∉ extension) :
    splitExtension name = (stem, some extension) ↔
      stem ≠ [] ∧ name = stem ++ '.' :: extension := by
  constructor
  · intro hsplit
    rw [splitExtension] at hsplit
    split at hsplit
    · rename_i before after hlast
      split_ifs at hsplit with hempty
      · simp at hsplit
      · obtain ⟨rfl, hafter⟩ := Prod.mk.inj hsplit
        obtain rfl := Option.some.inj hafter
        exact ⟨by simpa using hempty, Text.eq_of_splitLast hlast⟩
    · simp at hsplit
  · rintro ⟨hstem, rfl⟩
    rw [splitExtension, Text.splitLast_append_cons stem h]
    simp [hstem]

/-- A name ends with its extension. -/
theorem suffix_of_splitExtension {name extension : Text}
    (h : (splitExtension name).2 = some extension) : '.' :: extension <:+ name := by
  rw [splitExtension] at h
  split at h
  · rename_i stem ending hsplit
    split_ifs at h
    obtain rfl : ending = extension := by simpa using h
    exact ⟨stem, (Text.eq_of_splitLast hsplit).symm⟩
  · simp at h

end Path

/-! ### Where last fields lead -/

namespace Workspace

variable {w : Workspace} {path base : Text} {location : Location}

/-- What a path leads to is called by its last field. -/
theorem exists_eq_concat_of_resolve (hname : Path.IsName (Path.lastField path))
    (h : w.resolve path = .ok location) :
    ∃ directory, location = directory ++ [Path.lastField path] := by
  obtain ⟨-, hfollow⟩ := resolve_eq_ok_iff.mp h
  obtain ⟨before, hfields⟩ := Path.exists_fields_eq path
  rw [hfields, Tree.follow_append_iff] at hfollow
  obtain ⟨directory, -, hlast⟩ := hfollow
  rw [Tree.follow_singleton] at hlast
  exact ⟨directory, ((Tree.step_name_iff hname).mp hlast).2.2⟩

/-- A path that can be written ends with a name. -/
theorem isName_of_target (h : w.target path = .ok (.entry location false)) :
    Path.IsName (Path.lastField path) := by
  obtain ⟨before, name, slashes, -, -, hfields, hname, -, hslash, -, -⟩ := exists_of_target h
  rw [hslash rfl] at hfields
  rwa [Path.lastField_eq hfields]

/-- The fields in front of a joined path lead to something if the other path does. -/
theorem exists_front_of_object {object : Object} (h : w.object base = .ok object) :
    ∃ middle, w.tree.follow (w.base base) (Path.front base) = .ok middle ∧
      (w.tree.get? middle).isSome := by
  obtain ⟨location, hresolve, hobject⟩ := object_eq_ok_iff.mp h
  obtain ⟨hbase, hfollow⟩ := resolve_eq_ok_iff.mp hresolve
  rcases Path.fields_eq_front_or hbase with hfront | hfront
  · rw [hfront] at hfollow
    exact ⟨location, hfollow, by simp [hobject]⟩
  · rw [hfront, Tree.follow_append_iff] at hfollow
    obtain ⟨middle, hmiddle, hslash⟩ := hfollow
    rw [Tree.follow_singleton] at hslash
    exact ⟨middle, hmiddle, by simp [Tree.directory_of_step hslash]⟩

theorem base_join (h : Path.isAbsolute path = false) :
    w.base (Path.join base path) = w.base base := by
  rw [Workspace.base, Workspace.base, Path.isAbsolute_join h]

/-- They also do so if the joined path leads somewhere. -/
theorem exists_front_of_join (hrelative : Path.isAbsolute path = false)
    (h : w.resolve (Path.join base path) = .ok location) :
    ∃ middle, w.tree.follow (w.base base) (Path.front base) = .ok middle ∧
      (w.tree.get? middle).isSome := by
  obtain ⟨-, hfollow⟩ := resolve_eq_ok_iff.mp h
  rw [Path.fields_join hrelative, base_join hrelative, Tree.follow_append_iff] at hfollow
  obtain ⟨middle, hmiddle, hrest⟩ := hfollow
  obtain ⟨first, others, hfields⟩ := List.exists_cons_of_ne_nil (Text.fields_ne_nil '/' path)
  rw [hfields, Tree.follow_cons_iff] at hrest
  obtain ⟨next, hstep, -⟩ := hrest
  exact ⟨middle, hmiddle, by simp [Tree.directory_of_step hstep]⟩

end Workspace

end Files

end Phrasebook
