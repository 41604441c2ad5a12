import Phrasebook.Proofs.Catalog.Leaves
import Phrasebook.Proofs.Json.Objects
import Phrasebook.Proofs.Lists
import Phrasebook.Proofs.Text.Basic
import Phrasebook.Proofs.Text.Fields

/-!
# Dotted keys

The key of an entry is the steps to its leaf with dots between them. A step without a dot in it can
be read back from the key, and this is all that is needed: if no key of an object has a dot, the
steps to a leaf are the fields of its key, so different leaves have different keys. Empty keys and
keys that look like positions make no difference.
-/

namespace Phrasebook

/-! ### Steps to leaves -/

namespace Json

mutual
theorem exists_steps_leavesAt {steps : List Text} {value : Json} {leaf : Leaf}
    (h : leaf ∈ value.leavesAt steps) : ∃ more, leaf.steps = steps ++ more := by
  match value with
  | .null | .bool _ | .number _ | .string _ =>
    obtain rfl := List.mem_singleton.mp h
    exact ⟨[], (List.append_nil steps).symm⟩
  | .array items =>
    obtain ⟨position, -, more, hsteps⟩ := exists_steps_itemLeaves h
    exact ⟨_, hsteps⟩
  | .object members =>
    obtain ⟨key, -, more, hsteps⟩ := exists_steps_memberLeaves h
    exact ⟨_, hsteps⟩

/-- The first step into an array is a position that was not passed yet. -/
theorem exists_steps_itemLeaves {steps : List Text} {start : Nat} {items : List Json} {leaf : Leaf}
    (h : leaf ∈ itemLeaves steps start items) :
    ∃ position, start ≤ position ∧ ∃ more, leaf.steps = steps ++ Text.decimal position :: more := by
  match items with
  | [] => exact absurd h List.not_mem_nil
  | item :: rest =>
    rcases List.mem_append.mp h with h | h
    · obtain ⟨more, hsteps⟩ := exists_steps_leavesAt h
      exact ⟨start, le_rfl, more, by rw [hsteps, List.append_assoc, List.singleton_append]⟩
    · obtain ⟨position, hposition, more, hsteps⟩ := exists_steps_itemLeaves h
      exact ⟨position, by omega, more, hsteps⟩

/-- The first step into an object is one of its keys. -/
theorem exists_steps_memberLeaves {steps : List Text} {members : List (Text × Json)} {leaf : Leaf}
    (h : leaf ∈ memberLeaves steps members) :
    ∃ key ∈ members.map Prod.fst, ∃ more, leaf.steps = steps ++ key :: more := by
  match members with
  | [] => exact absurd h List.not_mem_nil
  | (key, value) :: rest =>
    rcases List.mem_append.mp h with h | h
    · obtain ⟨more, hsteps⟩ := exists_steps_leavesAt h
      refine ⟨key, List.mem_cons_self, more, ?_⟩
      rw [hsteps, List.append_assoc, List.singleton_append]
    · obtain ⟨other, hother, more, hsteps⟩ := exists_steps_memberLeaves h
      exact ⟨other, List.mem_cons_of_mem _ hother, more, hsteps⟩
end

/-- Leaves behind one step are reached by other steps than leaves behind other ones. -/
theorem nodup_steps_append {steps : List Text} {step : Text} {first rest : List Leaf}
    (hfirst : (first.map Leaf.steps).Nodup) (hrest : (rest.map Leaf.steps).Nodup)
    (hstep : ∀ leaf ∈ first, ∃ more, leaf.steps = (steps ++ [step]) ++ more)
    (hother : ∀ leaf ∈ rest, ∃ other, other ≠ step ∧ ∃ more, leaf.steps = steps ++ other :: more) :
    ((first ++ rest).map Leaf.steps).Nodup := by
  rw [List.map_append, List.nodup_append]
  refine ⟨hfirst, hrest, fun a ha b hb hab => ?_⟩
  obtain ⟨leaf, hleaf, rfl⟩ := List.mem_map.mp ha
  obtain ⟨leaf', hleaf', rfl⟩ := List.mem_map.mp hb
  obtain ⟨more, hmore⟩ := hstep leaf hleaf
  obtain ⟨other, hne, more', hmore'⟩ := hother leaf' hleaf'
  rw [hmore, hmore', List.append_assoc, List.append_cancel_left_eq] at hab
  exact hne (List.cons.inj hab).1.symm

mutual
/-- No two leaves of a value are reached by the same steps. -/
theorem nodup_steps_leavesAt (steps : List Text) {value : Json}
    (h : value.EveryObject List.Nodup) : ((value.leavesAt steps).map Leaf.steps).Nodup := by
  match value with
  | .null | .bool _ | .number _ | .string _ => exact List.nodup_singleton steps
  | .array items => exact nodup_steps_itemLeaves steps 0 h
  | .object members => exact nodup_steps_memberLeaves steps h.1 h.2

theorem nodup_steps_itemLeaves (steps : List Text) (start : Nat) {items : List Json}
    (h : EveryItem List.Nodup items) :
    ((itemLeaves steps start items).map Leaf.steps).Nodup := by
  match items with
  | [] => exact List.nodup_nil
  | item :: rest =>
    refine nodup_steps_append (nodup_steps_leavesAt _ h.1)
      (nodup_steps_itemLeaves steps (start + 1) h.2) (fun _ => exists_steps_leavesAt) ?_
    intro leaf hleaf
    obtain ⟨position, hposition, more, hsteps⟩ := exists_steps_itemLeaves hleaf
    refine ⟨_, fun hsame => ?_, more, hsteps⟩
    have hposition' := Text.decimal_injective hsame
    omega

theorem nodup_steps_memberLeaves (steps : List Text) {members : List (Text × Json)}
    (hkeys : (members.map Prod.fst).Nodup) (h : EveryMember List.Nodup members) :
    ((memberLeaves steps members).map Leaf.steps).Nodup := by
  match members with
  | [] => exact List.nodup_nil
  | (key, value) :: rest =>
    obtain ⟨hkey, hrest⟩ := List.nodup_cons.mp hkeys
    refine nodup_steps_append (nodup_steps_leavesAt _ h.1)
      (nodup_steps_memberLeaves steps hrest h.2) (fun _ => exists_steps_leavesAt) ?_
    intro leaf hleaf
    obtain ⟨other, hother, more, hsteps⟩ := exists_steps_memberLeaves hleaf
    exact ⟨other, fun hsame => hkey (hsame ▸ hother), more, hsteps⟩
end

/-- No key has a dot in it. -/
def Dotless (keys : List Text) : Prop := ∀ key ∈ keys, '.' ∉ key

theorem dotless_concat {steps : List Text} {step : Text} (hsteps : Dotless steps)
    (hstep : '.' ∉ step) : Dotless (steps ++ [step]) := by
  intro key hkey
  rcases List.mem_append.mp hkey with hkey | hkey
  · exact hsteps key hkey
  · rwa [List.mem_singleton.mp hkey]

mutual
/-- Steps have no dots if the keys have none. -/
theorem dotless_steps_leavesAt {steps : List Text} (hsteps : Dotless steps) {value : Json}
    (h : value.EveryObject Dotless) : ∀ leaf ∈ value.leavesAt steps, Dotless leaf.steps := by
  match value with
  | .null | .bool _ | .number _ | .string _ =>
    intro leaf hleaf
    rwa [List.mem_singleton.mp hleaf]
  | .array items => exact dotless_steps_itemLeaves hsteps 0 h
  | .object members => exact dotless_steps_memberLeaves hsteps h.1 h.2

theorem dotless_steps_itemLeaves {steps : List Text} (hsteps : Dotless steps) (start : Nat)
    {items : List Json} (h : EveryItem Dotless items) :
    ∀ leaf ∈ itemLeaves steps start items, Dotless leaf.steps := by
  match items with
  | [] => exact fun _ hleaf => absurd hleaf List.not_mem_nil
  | item :: rest =>
    intro leaf hleaf
    rcases List.mem_append.mp hleaf with hleaf | hleaf
    · have hnext := dotless_concat hsteps (Text.not_mem_decimal (by decide) start)
      exact dotless_steps_leavesAt hnext h.1 leaf hleaf
    · exact dotless_steps_itemLeaves hsteps (start + 1) h.2 leaf hleaf

theorem dotless_steps_memberLeaves {steps : List Text} (hsteps : Dotless steps)
    {members : List (Text × Json)} (hkeys : Dotless (members.map Prod.fst))
    (h : EveryMember Dotless members) :
    ∀ leaf ∈ memberLeaves steps members, Dotless leaf.steps := by
  match members with
  | [] => exact fun _ hleaf => absurd hleaf List.not_mem_nil
  | (key, value) :: rest =>
    obtain ⟨hkey, hrest⟩ := List.forall_mem_cons.mp hkeys
    intro leaf hleaf
    rcases List.mem_append.mp hleaf with hleaf | hleaf
    · exact dotless_steps_leavesAt (dotless_concat hsteps hkey) h.1 leaf hleaf
    · exact dotless_steps_memberLeaves hsteps hrest h.2 leaf hleaf
end

/-- The steps to a leaf of an object are the fields of its path, if no key has a dot. -/
theorem fields_path {tree : Json} (hobject : tree.IsObject) (h : tree.EveryObject Dotless) :
    ∀ leaf ∈ tree.leaves, Text.fields '.' leaf.path = leaf.steps := by
  intro leaf hleaf
  refine Text.fields_joinWith ?_ (dotless_steps_leavesAt (by simp [Dotless]) h leaf hleaf)
  obtain ⟨members, rfl⟩ := hobject
  obtain ⟨key, -, more, hsteps⟩ := exists_steps_memberLeaves hleaf
  simp [hsteps]

/-- Different leaves of an object have different paths, if no key has a dot. -/
theorem nodup_paths {tree : Json} (hobject : tree.IsObject) (hkeys : tree.EveryObject List.Nodup)
    (h : tree.EveryObject Dotless) : (tree.leaves.map Leaf.path).Nodup := by
  have hsteps : tree.leaves.map (Text.fields '.' ∘ Leaf.path) = tree.leaves.map Leaf.steps :=
    List.map_congr_left (fields_path hobject h)
  -- The steps can be read off the paths, so equal paths would be equal steps.
  refine List.Nodup.of_map (Text.fields '.') ?_
  rw [List.map_map, hsteps]
  exact nodup_steps_leavesAt [] hkeys

end Json

/-! ### One entry for each leaf -/

namespace Catalog

/-- Leaves with different paths have one entry each, in their order. -/
theorem Collects.forall₂_entries {store : Store} {leaves : List Leaf} (h : Collects store leaves)
    (hpaths : (leaves.map Leaf.path).Nodup) :
    List.Forall₂ (fun leaf entry => ∃ pattern, leaf.pattern? = some pattern ∧
      entry = Entry.compile leaf.path pattern) leaves store.entries := by
  have hkeys : leaves.map Leaf.path = store.entries.map Entry.key := by
    rw [← Lists.eraseDups_of_nodup hpaths, ← h.keys_eq]
    rfl
  rw [← List.forall₂_eq_eq_eq, List.forall₂_map_left_iff, List.forall₂_map_right_iff] at hkeys
  obtain ⟨hlength, hzip⟩ := List.forall₂_iff_zip.mp hkeys
  refine List.forall₂_iff_zip.mpr ⟨hlength, fun {leaf entry} hpair => ?_⟩
  obtain ⟨hleaf, hentry⟩ := List.of_mem_zip hpair
  obtain ⟨before, after, rfl⟩ := List.append_of_mem hleaf
  have hlast : ∀ other ∈ after, other.path ≠ leaf.path := by
    rw [List.map_append, List.map_cons, List.nodup_append, List.nodup_cons] at hpaths
    exact fun other hother heq => hpaths.2.1.1 (heq ▸ List.mem_map_of_mem hother)
  obtain ⟨pattern, hpattern, hfind⟩ := h.last before leaf after rfl hlast
  refine ⟨pattern, hpattern, ?_⟩
  rw [hzip hpair, Store.find?_of_mem hentry] at hfind
  rw [hzip hpair]
  exact Option.some.inj hfind

/-- A tree that was read has no key twice in an object. If in addition no key has a dot in it and no
leaf is null or a boolean, then flattening gives one entry for each leaf, in the order of the
document and without a warning, and the fields of its key are the steps to the leaf. -/
theorem flatten_of_dotless_keys :
    (∀ text tree, Json.read text = .ok tree → tree.EveryObject List.Nodup) ∧
    ∀ tree : Json, tree.IsObject → tree.EveryObject List.Nodup → tree.EveryObject Json.Dotless →
      (∀ leaf ∈ tree.leaves, ¬ leaf.Refused) →
      ∃ store, (flatten tree).result = .ok store ∧ warnings (flatten tree).log = 0 ∧
        List.Forall₂ (fun leaf entry => Text.fields '.' entry.key = leaf.steps ∧
          ∃ pattern, leaf.pattern? = some pattern ∧ entry = Entry.compile leaf.path pattern)
          tree.leaves store.entries := by
  refine ⟨fun _ _ => Json.everyObject_nodup_of_read, fun tree hobject hkeys hdotless hleaves => ?_⟩
  have hpaths := Json.nodup_paths hobject hkeys hdotless
  obtain ⟨store, hflatten, hstore⟩ := exists_store_of_flatten hobject hleaves
  refine ⟨store, by rw [hflatten], ?_, ?_⟩
  · have hcount := length_eraseDups_add_warnings_logAfter [] hleaves
    rw [List.nil_append, Lists.eraseDups_of_nodup hpaths, List.length_map] at hcount
    rw [hflatten]
    simpa [logOf] using hcount
  · obtain ⟨hlength, hzip⟩ := List.forall₂_iff_zip.mp (hstore.forall₂_entries hpaths)
    refine List.forall₂_iff_zip.mpr ⟨hlength, fun {leaf entry} hpair => ?_⟩
    obtain ⟨pattern, hpattern, rfl⟩ := hzip hpair
    have hleaf := (List.of_mem_zip hpair).1
    exact ⟨Json.fields_path hobject hdotless leaf hleaf, pattern, hpattern, rfl⟩

/-- A tree with empty keys at the root and below, and with a key that looks like a position. -/
def oddKeys : Json :=
  .object
    [("", .object [("", .string "x"), ("0", .string "y")]),
      ("a", .array [.string "z", .object [("0", .number (.integer 1)), ("", .array [])]])]

theorem flatten_of_dotless_keys_oddKeys :
    oddKeys.leaves.map Leaf.path = [".", ".0", "a.0", "a.1.0"] ∧
    ∃ store, (flatten oddKeys).result = .ok store ∧ warnings (flatten oddKeys).log = 0 ∧
      List.Forall₂ (fun leaf entry => Text.fields '.' entry.key = leaf.steps ∧
        ∃ pattern, leaf.pattern? = some pattern ∧ entry = Entry.compile leaf.path pattern)
        oddKeys.leaves store.entries := by
  refine ⟨by decide, flatten_of_dotless_keys.2 oddKeys ⟨_, rfl⟩ ?_ ?_ (by decide)⟩
  · simp [oddKeys, Json.EveryObject, Json.EveryMember, Json.EveryItem]
  · simp [oddKeys, Json.EveryObject, Json.EveryMember, Json.EveryItem, Json.Dotless]

end Catalog

end Phrasebook
