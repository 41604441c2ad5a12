import Phrasebook.Catalog.Basic
import Phrasebook.Proofs.Template.Variables
import Mathlib.Data.Finset.Card
import Mathlib.Data.Finset.SymmDiff

/-!
# First places and last entries

A store of entries that came in one after the other has their keys in the order in which they first
came in, and under each key the entry that came in last. No key is there twice, so the keys in which
two catalogs differ are counted by sets.
-/

namespace Phrasebook.Catalog

open Template

theorem keys_insertEntry (entry : Entry) (entries : List Entry) :
    (insertEntry entry entries).map Entry.key = addName (entries.map Entry.key) entry.key := by
  induction entries with
  | nil => simp [insertEntry, addName]
  | cons first rest ih =>
    by_cases h : first.key = entry.key
    · simp [insertEntry, addName, h]
    · have hne : entry.key ≠ first.key := Ne.symm h
      rw [insertEntry, if_neg h, List.map_cons, ih, addName, addName]
      by_cases hmem : entry.key ∈ rest.map Entry.key
      · rw [if_pos hmem, if_pos (by simpa [hne] using hmem), List.map_cons]
      · rw [if_neg hmem, if_neg (by simpa [hne] using hmem), List.map_cons, List.cons_append]

namespace Store

theorem keys_insert (store : Store) (entry : Entry) :
    (store.insert entry).keys = addName store.keys entry.key :=
  keys_insertEntry entry store.entries

theorem keys_foldl_insert (store : Store) (entries : List Entry) :
    (entries.foldl insert store).keys = (entries.map Entry.key).foldl addName store.keys := by
  induction entries generalizing store with
  | nil => rfl
  | cons entry entries ih => rw [List.foldl_cons, ih, keys_insert, List.map_cons, List.foldl_cons]

/-- The keys of a store are in the order of their first occurrences. -/
theorem keys_ofEntries (entries : List Entry) :
    (ofEntries entries).keys = (entries.map Entry.key).eraseDups := by
  rw [ofEntries, keys_foldl_insert]
  exact foldl_addName_nil _

theorem ofEntries_concat (entries : List Entry) (entry : Entry) :
    ofEntries (entries ++ [entry]) = (ofEntries entries).insert entry := by
  simp [ofEntries]

/-- The last entry with a key is found. -/
theorem find?_ofEntries (entries : List Entry) (key : Text) :
    (ofEntries entries).find? key = entries.reverse.find? fun entry => entry.key == key := by
  induction entries using List.reverseRecOn with
  | nil => rfl
  | append_singleton entries entry ih =>
    rw [ofEntries_concat, List.reverse_append, List.reverse_singleton, List.singleton_append,
      List.find?_cons]
    by_cases h : entry.key = key
    · subst h
      rw [find?_insert_self, beq_self_eq_true]
    · rw [find?_insert_of_ne h, ih, beq_false_of_ne h]

/-- An entry of a store is found under its key. -/
theorem find?_of_mem {store : Store} {entry : Entry} (h : entry ∈ store.entries) :
    store.find? entry.key = some entry := by
  obtain ⟨entries, nodup⟩ := store
  rw [find?]
  induction entries with
  | nil => simp at h
  | cons first rest ih =>
    rw [List.map_cons, List.nodup_cons] at nodup
    rcases List.mem_cons.mp h with rfl | h
    · simp
    · have hne : first.key ≠ entry.key := by
        intro heq
        exact nodup.1 (heq ▸ List.mem_map_of_mem h)
      rw [List.find?_cons, beq_false_of_ne hne]
      exact ih nodup.2 h

end Store

/-! ### Keys of catalogs -/

/-- The keys of a catalog, without their order. -/
def keySet (catalog : Catalog) : Finset Text := catalog.keys.toFinset

theorem card_keySet (catalog : Catalog) : catalog.keySet.card = catalog.store.size := by
  rw [keySet, keys, Store.keys, List.toFinset_card_of_nodup catalog.store.nodup, List.length_map,
    Store.size]

/-- The keys that only one of two catalogs has are counted one by one. -/
theorem length_filter_keys (catalog reference : Catalog) :
    (reference.keys.filter fun key => key ∉ catalog.keys).length =
      (reference.keySet \ catalog.keySet).card := by
  have hnodup : (reference.keys.filter fun key => key ∉ catalog.keys).Nodup :=
    reference.store.nodup.filter _
  rw [← List.toFinset_card_of_nodup hnodup]
  congr 1
  ext key
  simp [keySet]

/-- The size of a difference is that of the symmetric difference. -/
theorem size_keyDifference (catalog reference : Catalog) :
    (catalog.keyDifference reference).size =
      (symmDiff catalog.keySet reference.keySet).card := by
  rw [KeyDifference.size, keyDifference, length_filter_keys, length_filter_keys, symmDiff_def,
    Finset.sup_eq_union, Finset.card_union_of_disjoint disjoint_sdiff_sdiff, Nat.add_comm]

theorem KeyDifference.size_of_isEmpty {d : KeyDifference} (h : d.isEmpty = true) : d.size = 0 := by
  rw [isEmpty, Bool.and_eq_true, List.isEmpty_iff, List.isEmpty_iff] at h
  rw [size, h.1, h.2]
  rfl

end Phrasebook.Catalog
