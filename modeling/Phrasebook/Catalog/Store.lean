import Phrasebook.Template

/-!
# Stores of compiled patterns

A store holds compiled patterns under keys, each key once, in the order in which the keys first
came in.
-/

namespace Phrasebook.Catalog

/-- A pattern, compiled under a key. -/
structure Entry where
  key : Text
  pattern : Text
  compiled : Template.Compiled

/-- The entry of a pattern under a key. -/
def Entry.compile (key pattern : Text) : Entry := ⟨key, pattern, Template.compile pattern⟩

/-- Entries with one more: in the place of the entry under its key if there is one, else at the
end. -/
def insertEntry (entry : Entry) : List Entry → List Entry
  | [] => [entry]
  | first :: rest =>
    if first.key = entry.key then entry :: rest else first :: insertEntry entry rest

theorem mem_keys_insertEntry {entry : Entry} {entries : List Entry} {key : Text} :
    key ∈ (insertEntry entry entries).map Entry.key ↔
      key = entry.key ∨ key ∈ entries.map Entry.key := by
  induction entries with
  | nil => simp [insertEntry]
  | cons first rest ih =>
    by_cases h : first.key = entry.key
    · simp [insertEntry, h]
    · simp only [insertEntry, if_neg h, List.map_cons, List.mem_cons, ih]
      exact or_left_comm

theorem nodup_keys_insertEntry {entry : Entry} {entries : List Entry}
    (h : (entries.map Entry.key).Nodup) : ((insertEntry entry entries).map Entry.key).Nodup := by
  induction entries with
  | nil => simp [insertEntry]
  | cons first rest ih =>
    rw [List.map_cons, List.nodup_cons] at h
    by_cases same : first.key = entry.key
    · rw [insertEntry, if_pos same, List.map_cons, List.nodup_cons, ← same]
      exact h
    · rw [insertEntry, if_neg same, List.map_cons, List.nodup_cons]
      refine ⟨fun member => ?_, ih h.2⟩
      rcases mem_keys_insertEntry.mp member with equal | old
      · exact same equal
      · exact h.1 old

/-- Compiled patterns under distinct keys, in order. -/
structure Store where
  entries : List Entry
  nodup : (entries.map Entry.key).Nodup

namespace Store

/-- The store without entries. -/
def empty : Store := ⟨[], by simp⟩

/-- The keys of a store, in order. -/
def keys (store : Store) : List Text := store.entries.map Entry.key

/-- The number of entries. -/
def size (store : Store) : Nat := store.entries.length

/-- The store with an entry under its key. A key that is there already keeps its place. -/
def insert (store : Store) (entry : Entry) : Store :=
  ⟨insertEntry entry store.entries, nodup_keys_insertEntry store.nodup⟩

/-- The entry under a key. -/
def find? (store : Store) (key : Text) : Option Entry :=
  store.entries.find? fun entry => entry.key == key

/-- An entry is found under its key as soon as it has come in. -/
@[simp] theorem find?_insert_self (store : Store) (entry : Entry) :
    (store.insert entry).find? entry.key = some entry := by
  obtain ⟨entries, nodup⟩ := store
  simp only [find?, insert]
  clear nodup
  induction entries with
  | nil => simp [insertEntry]
  | cons first rest ih =>
    by_cases same : first.key = entry.key
    · simp [insertEntry, same]
    · simp [insertEntry, same, ih]

/-- An entry that comes in leaves what stands under other keys. -/
theorem find?_insert_of_ne {store : Store} {entry : Entry} {key : Text} (h : entry.key ≠ key) :
    (store.insert entry).find? key = store.find? key := by
  obtain ⟨entries, nodup⟩ := store
  simp only [find?, insert]
  clear nodup
  induction entries with
  | nil => simp [insertEntry, h]
  | cons first rest ih =>
    by_cases same : first.key = entry.key
    · simp [insertEntry, same, h]
    · rw [insertEntry, if_neg same, List.find?_cons, List.find?_cons, ih]

/-- The store of entries that come in one after the other. -/
def ofEntries (entries : List Entry) : Store := entries.foldl insert empty

end Store

end Phrasebook.Catalog
