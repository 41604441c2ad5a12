import Phrasebook.Catalog.Basic
import Phrasebook.Proofs.Catalog.Store
import Phrasebook.Proofs.Text.Fields

/-!
# Flattening is a fold over leaves

A tree of objects and arrays has leaves, in the order of the document. A leaf is reached by steps:
the key of a member, or the position of an item. Flattening takes the leaves one after the other.
It compiles each under its dotted path, and stops at the first one that is null or a boolean. What
it does with a leaf depends on the leaves before only through their paths.
-/

namespace Phrasebook

/-! ### Leaves -/

/-- A value without parts. -/
inductive Scalar where
  | null
  | bool (value : Bool)
  | number (value : Number)
  | string (value : Text)

/-- The JSON value of a scalar. -/
def Scalar.toJson : Scalar → Json
  | null => .null
  | bool value => .bool value
  | number value => .number value
  | string value => .string value

/-- A value without parts, at the end of the steps that lead to it. -/
structure Leaf where
  steps : List Text
  value : Scalar

namespace Leaf

/-- The steps to a leaf with dots between them. -/
def path (leaf : Leaf) : Text := Text.joinWith ['.'] leaf.steps

/-- Whether a leaf is null or a boolean. -/
def Refused (leaf : Leaf) : Prop := leaf.value = .null ∨ ∃ value, leaf.value = .bool value

/-- The pattern of a leaf: a string as it is, and the text of a number. -/
def pattern? (leaf : Leaf) : Option Text :=
  match leaf.value with
  | .null => none
  | .bool _ => none
  | .number value => some value.text
  | .string value => some value

theorem pattern?_eq_none_iff {leaf : Leaf} : leaf.pattern? = none ↔ leaf.Refused := by
  obtain ⟨steps, value⟩ := leaf
  cases value <;> simp [pattern?, Refused]

instance : DecidablePred Refused :=
  fun _ => decidable_of_iff _ pattern?_eq_none_iff

theorem exists_pattern {leaf : Leaf} (h : ¬ leaf.Refused) :
    ∃ pattern, leaf.pattern? = some pattern := by
  rw [← pattern?_eq_none_iff] at h
  exact Option.ne_none_iff_exists'.mp h

end Leaf

namespace Json

/-- Whether a value is an object. -/
def IsObject (value : Json) : Prop := ∃ members, value = object members

mutual
/-- The leaves of a value that is reached by steps. -/
def leavesAt (steps : List Text) : Json → List Leaf
  | null => [⟨steps, .null⟩]
  | bool value => [⟨steps, .bool value⟩]
  | number value => [⟨steps, .number value⟩]
  | string value => [⟨steps, .string value⟩]
  | array items => itemLeaves steps 0 items
  | object members => memberLeaves steps members

/-- The leaves of the items of an array, from a position on. -/
def itemLeaves (steps : List Text) (position : Nat) : List Json → List Leaf
  | [] => []
  | item :: rest =>
    leavesAt (steps ++ [Text.decimal position]) item ++ itemLeaves steps (position + 1) rest

/-- The leaves of the members of an object. -/
def memberLeaves (steps : List Text) : List (Text × Json) → List Leaf
  | [] => []
  | (key, value) :: rest => leavesAt (steps ++ [key]) value ++ memberLeaves steps rest
end

/-- The leaves of a tree, in the order of the document. -/
def leaves (tree : Json) : List Leaf := leavesAt [] tree

end Json

namespace Catalog

/-! ### One leaf after the other -/

namespace Flattening

theorem andThen_done (first : Flattening) : first.andThen done = first := by
  obtain ⟨log, result⟩ := first
  cases result <;> simp [andThen, done]

theorem andThen_assoc (first : Flattening) (second third : Store → Flattening) :
    (first.andThen second).andThen third = first.andThen fun store =>
      (second store).andThen third := by
  obtain ⟨log, result⟩ := first
  cases result with
  | error error => rfl
  | ok store =>
    simp only [andThen]
    generalize second store = middle
    obtain ⟨more, result⟩ := middle
    cases result with
    | error error => rfl
    | ok store => simp only [List.append_assoc]

/-- What a leaf does to a store. -/
def ofLeaf (leaf : Leaf) (store : Store) : Flattening :=
  match leaf.pattern? with
  | none => .refused leaf.path leaf.value.toJson
  | some pattern => .leaf leaf.path pattern store

end Flattening

open Flattening

/-- What leaves do to a store, one after the other. -/
def takeLeaves : List Leaf → Store → Flattening
  | [], store => done store
  | leaf :: rest, store => (ofLeaf leaf store).andThen (takeLeaves rest)

theorem takeLeaves_append (first second : List Leaf) (store : Store) :
    takeLeaves (first ++ second) store = (takeLeaves first store).andThen (takeLeaves second) := by
  induction first generalizing store with
  | nil => rfl
  | cons leaf rest ih =>
    rw [List.cons_append, takeLeaves, takeLeaves, andThen_assoc]
    congr 1
    funext store
    exact ih store

theorem takeLeaves_singleton (leaf : Leaf) (store : Store) :
    takeLeaves [leaf] store = ofLeaf leaf store :=
  andThen_done _

mutual
/-- Flattening a value takes its leaves one after the other. -/
theorem flattenValue_eq {steps : List Text} (h : steps ≠ []) (value : Json) (store : Store) :
    flattenValue (Text.joinWith ['.'] steps) value store =
      takeLeaves (value.leavesAt steps) store := by
  match value with
  | .null => exact (takeLeaves_singleton ⟨steps, .null⟩ store).symm
  | .bool value => exact (takeLeaves_singleton ⟨steps, .bool value⟩ store).symm
  | .number value => exact (takeLeaves_singleton ⟨steps, .number value⟩ store).symm
  | .string value => exact (takeLeaves_singleton ⟨steps, .string value⟩ store).symm
  | .array items => exact flattenItems_eq h 0 items store
  | .object members =>
    refine flattenMembers_eq (fun key => ?_) members store
    rw [Text.joinWith_concat h, List.append_assoc, List.singleton_append]

theorem flattenItems_eq {steps : List Text} (h : steps ≠ []) (position : Nat) (items : List Json)
    (store : Store) :
    flattenItems (Text.joinWith ['.'] steps) position items store =
      takeLeaves (Json.itemLeaves steps position items) store := by
  match items with
  | [] => rfl
  | item :: rest =>
    rw [flattenItems, Json.itemLeaves, takeLeaves_append, ← Text.joinWith_concat h,
      flattenValue_eq (by simp) item]
    congr 1
    funext store
    exact flattenItems_eq h (position + 1) rest store

/-- The stem in front of the keys of members is all that tells the root from an object below. -/
theorem flattenMembers_eq {steps : List Text} {stem : Text}
    (hstem : ∀ key, stem ++ key = Text.joinWith ['.'] (steps ++ [key]))
    (members : List (Text × Json)) (store : Store) :
    flattenMembers stem members store = takeLeaves (Json.memberLeaves steps members) store := by
  match members with
  | [] => rfl
  | (key, value) :: rest =>
    rw [flattenMembers, Json.memberLeaves, takeLeaves_append, hstem,
      flattenValue_eq (by simp) value]
    congr 1
    funext store
    exact flattenMembers_eq hstem rest store
end

/-! ### The log and the store of leaves -/

/-- What is logged for a leaf that comes after others: that it is compiled, and a warning if one of
the others has its path. -/
def eventsOf (earlier : List Leaf) (leaf : Leaf) : List Event :=
  match leaf.pattern? with
  | none => []
  | some pattern =>
    .compiledPattern leaf.path (Template.compile pattern).names.length
        (Template.compile pattern).diagnostics.length ::
      if leaf.path ∈ earlier.map Leaf.path then [.duplicateKey leaf.path] else []

/-- What is logged for leaves that come after others. -/
def logAfter (earlier : List Leaf) : List Leaf → List Event
  | [] => []
  | leaf :: rest => eventsOf earlier leaf ++ logAfter (earlier ++ [leaf]) rest

/-- What is logged for leaves, one after the other. -/
def logOf (leaves : List Leaf) : List Event := logAfter [] leaves

/-- A store has the paths of leaves as keys, in the order of their first occurrences, and under each
path the pattern of the last leaf with it. -/
structure Collects (store : Store) (leaves : List Leaf) : Prop where
  keys_eq : store.keys = (leaves.map Leaf.path).eraseDups
  last : ∀ before leaf after, leaves = before ++ leaf :: after →
    (∀ other ∈ after, other.path ≠ leaf.path) →
    ∃ pattern, leaf.pattern? = some pattern ∧
      store.find? leaf.path = some (Entry.compile leaf.path pattern)
  key_eq : ∀ key entry, store.find? key = some entry → entry.key = key

theorem collects_empty : Collects .empty [] where
  keys_eq := rfl
  last := by simp
  key_eq := by simp [Store.find?, Store.empty]

namespace Collects

variable {store : Store} {leaves : List Leaf} {leaf : Leaf}

theorem mem_keys_iff (h : Collects store leaves) (path : Text) :
    path ∈ store.keys ↔ path ∈ leaves.map Leaf.path := by
  rw [h.keys_eq, List.mem_eraseDups]

/-- A leaf that comes in takes over from the leaves with its path. -/
theorem insert {pattern : Text} (h : Collects store leaves)
    (hleaf : leaf.pattern? = some pattern) :
    Collects (store.insert (Entry.compile leaf.path pattern)) (leaves ++ [leaf]) where
  keys_eq := by
    rw [Store.keys_insert, h.keys_eq, List.map_append, List.map_singleton,
      Template.eraseDups_concat]
    rfl
  last := by
    intro before other after hsplit hlast
    rcases List.eq_nil_or_concat after with rfl | ⟨after, final, rfl⟩
    · obtain ⟨rfl, hother⟩ := List.append_inj' hsplit rfl
      obtain rfl : leaf = other := by simpa using hother
      exact ⟨pattern, hleaf, Store.find?_insert_self _ _⟩
    · rw [List.concat_eq_append] at hsplit hlast
      rw [← List.cons_append, ← List.append_assoc] at hsplit
      obtain ⟨hleaves, hfinal⟩ := List.append_inj' hsplit rfl
      obtain rfl : leaf = final := by simpa using hfinal
      obtain ⟨found, hfound, hfind⟩ := h.last before other after hleaves fun third hthird =>
        hlast third (List.mem_append_left _ hthird)
      refine ⟨found, hfound, ?_⟩
      have hne : leaf.path ≠ other.path := hlast leaf (by simp)
      rwa [Store.find?_insert_of_ne hne]
  key_eq := by
    intro key entry hfind
    have hkey := List.find?_some hfind
    exact beq_iff_eq.mp hkey

end Collects

/-- A leaf that can be compiled is logged and comes into the store. -/
theorem ofLeaf_eq {store : Store} {earlier : List Leaf} {leaf : Leaf} (h : Collects store earlier)
    (hleaf : ¬ leaf.Refused) :
    ∃ next, ofLeaf leaf store = ⟨eventsOf earlier leaf, .ok next⟩ ∧
      Collects next (earlier ++ [leaf]) := by
  obtain ⟨pattern, hpattern⟩ := Leaf.exists_pattern hleaf
  refine ⟨_, ?_, h.insert hpattern⟩
  simp only [ofLeaf, eventsOf, hpattern, Flattening.leaf, h.mem_keys_iff]
  rfl

/-- A leaf that cannot be compiled ends the flattening. -/
theorem ofLeaf_of_refused {leaf : Leaf} (h : leaf.Refused) (store : Store) :
    ofLeaf leaf store = ⟨[], .error (.unsupportedLeaf leaf.path leaf.value.toJson.kind)⟩ := by
  rw [ofLeaf, Leaf.pattern?_eq_none_iff.mpr h]
  rfl

/-- Leaves that can all be compiled are logged and come into the store. -/
theorem takeLeaves_eq {store : Store} {earlier rest : List Leaf} (h : Collects store earlier)
    (hrest : ∀ leaf ∈ rest, ¬ leaf.Refused) :
    ∃ last, takeLeaves rest store = ⟨logAfter earlier rest, .ok last⟩ ∧
      Collects last (earlier ++ rest) := by
  -- The leaves that were taken move from `rest` to `earlier`, and the store keeps up with them.
  induction rest generalizing store earlier with
  | nil => exact ⟨store, rfl, by simpa using h⟩
  | cons leaf rest ih =>
    obtain ⟨hleaf, hrest⟩ := List.forall_mem_cons.mp hrest
    obtain ⟨next, hnext, hcollects⟩ := ofLeaf_eq h hleaf
    obtain ⟨last, htake, hlast⟩ := ih hcollects hrest
    refine ⟨last, ?_, by simpa using hlast⟩
    simp only [takeLeaves, hnext, andThen, htake, logAfter]

/-- The first leaf that cannot be compiled ends the flattening. -/
theorem takeLeaves_of_refused {before after : List Leaf} {leaf : Leaf}
    (hbefore : ∀ other ∈ before, ¬ other.Refused) (hleaf : leaf.Refused) :
    takeLeaves (before ++ leaf :: after) .empty =
      ⟨logOf before, .error (.unsupportedLeaf leaf.path leaf.value.toJson.kind)⟩ := by
  obtain ⟨store, htake, -⟩ := takeLeaves_eq collects_empty hbefore
  simp only [takeLeaves_append, htake, takeLeaves, ofLeaf_of_refused hleaf, andThen,
    List.append_nil, logOf]

/-! ### Counting warnings -/

/-- The number of warnings in a log. -/
def warnings (log : List Event) : Nat := log.countP fun event => event.level = .warn

theorem warnings_append (first second : List Event) :
    warnings (first ++ second) = warnings first + warnings second :=
  List.countP_append

/-- Each leaf brings a new path or a warning. -/
theorem length_eraseDups_add_warnings (earlier : List Leaf) {leaf : Leaf} (h : ¬ leaf.Refused) :
    ((earlier ++ [leaf]).map Leaf.path).eraseDups.length + warnings (eventsOf earlier leaf) =
      (earlier.map Leaf.path).eraseDups.length + 1 := by
  obtain ⟨pattern, hpattern⟩ := Leaf.exists_pattern h
  rw [List.map_append, List.map_singleton, Template.eraseDups_concat]
  simp only [Template.addName, List.mem_eraseDups, eventsOf, hpattern]
  split_ifs <;> simp [warnings, Event.level]

/-- Leaves bring as many paths and warnings as they are. -/
theorem length_eraseDups_add_warnings_logAfter (earlier : List Leaf) {rest : List Leaf}
    (h : ∀ leaf ∈ rest, ¬ leaf.Refused) :
    ((earlier ++ rest).map Leaf.path).eraseDups.length + warnings (logAfter earlier rest) =
      (earlier.map Leaf.path).eraseDups.length + rest.length := by
  induction rest generalizing earlier with
  | nil => simp [logAfter, warnings]
  | cons leaf rest ih =>
    obtain ⟨hleaf, hrest⟩ := List.forall_mem_cons.mp h
    have hstep := length_eraseDups_add_warnings earlier hleaf
    have hrun := ih (earlier ++ [leaf]) hrest
    rw [List.append_assoc, List.singleton_append] at hrun
    rw [logAfter, warnings_append, List.length_cons]
    omega

/-! ### Trees -/

theorem flatten_of_not_isObject {tree : Json} (h : ¬ tree.IsObject) :
    flatten tree = ⟨[], .error (.invalidRoot tree.kind)⟩ := by
  cases tree with
  | object members => exact absurd ⟨members, rfl⟩ h
  | null => rfl
  | bool value => rfl
  | number value => rfl
  | string value => rfl
  | array items => rfl

theorem flatten_of_isObject {tree : Json} (h : tree.IsObject) :
    flatten tree = takeLeaves tree.leaves .empty := by
  obtain ⟨members, rfl⟩ := h
  exact flattenMembers_eq (fun key => by simp [Text.joinWith]) members .empty

/-- There is a first leaf that is refused if there is any. -/
theorem exists_first_refused {leaves : List Leaf} (h : ∃ leaf ∈ leaves, leaf.Refused) :
    ∃ before leaf after, leaves = before ++ leaf :: after ∧
      (∀ other ∈ before, ¬ other.Refused) ∧ leaf.Refused := by
  obtain ⟨found, hfind⟩ : ∃ found, leaves.find? (fun leaf => leaf.Refused) = some found := by
    rw [← Option.isSome_iff_exists, List.find?_isSome]
    simpa using h
  obtain ⟨hrefused, before, after, hsplit, hbefore⟩ := List.find?_eq_some_iff_append.mp hfind
  exact ⟨before, found, after, hsplit, by simpa using hbefore, by simpa using hrefused⟩

section Object

variable {tree : Json} (hobject : tree.IsObject)
include hobject

/-- An object fails at its first leaf that is refused. -/
theorem flatten_of_refused {before after : List Leaf} {leaf : Leaf}
    (hsplit : tree.leaves = before ++ leaf :: after) (hbefore : ∀ other ∈ before, ¬ other.Refused)
    (hleaf : leaf.Refused) :
    flatten tree = ⟨logOf before, .error (.unsupportedLeaf leaf.path leaf.value.toJson.kind)⟩ := by
  rw [flatten_of_isObject hobject, hsplit, takeLeaves_of_refused hbefore hleaf]

/-- An object collects its leaves if none is refused. -/
theorem exists_store_of_flatten (hleaves : ∀ leaf ∈ tree.leaves, ¬ leaf.Refused) :
    ∃ store, flatten tree = ⟨logOf tree.leaves, .ok store⟩ ∧ Collects store tree.leaves := by
  rw [flatten_of_isObject hobject]
  exact takeLeaves_eq collects_empty hleaves

/-- What an object fails with is a leaf. -/
theorem exists_leaf_of_flatten_error {error : Error} (h : (flatten tree).result = .error error) :
    ∃ leaf ∈ tree.leaves, leaf.Refused ∧
      error = .unsupportedLeaf leaf.path leaf.value.toJson.kind := by
  by_cases hrefused : ∃ leaf ∈ tree.leaves, leaf.Refused
  · obtain ⟨before, leaf, after, hsplit, hbefore, hleaf⟩ := exists_first_refused hrefused
    rw [flatten_of_refused hobject hsplit hbefore hleaf] at h
    have herror := Except.error.inj h
    exact ⟨leaf, by simp [hsplit], hleaf, herror.symm⟩
  · obtain ⟨store, hflatten, -⟩ := exists_store_of_flatten hobject (by simpa using hrefused)
    rw [hflatten] at h
    cases h

end Object

/-! ### Catalogs -/

/-- A catalog is made of a JSON tree that can be flattened. -/
theorem load_eq_ok_iff {language source text : Text} {catalog : Catalog} :
    (load language source text).result = .ok catalog ↔
      ∃ tree, Json.read text = .ok tree ∧ (flatten tree).result = .ok catalog.store ∧
        catalog.language = language := by
  obtain ⟨own, store⟩ := catalog
  rw [load]
  cases Json.read text with
  | error error => simp
  | ok tree =>
    cases hflatten : (flatten tree).result <;> simp [hflatten, Except.map, eq_comm, and_comm]

/-- A text that was read does not fail as a file that cannot be read. -/
theorem ne_unreadable_of_load {language source text : Text} {error : Error}
    (h : (load language source text).result = .error error) (path : Text) (fault : Files.Fault) :
    error ≠ .unreadable path fault := by
  rintro rfl
  rw [load] at h
  cases hread : Json.read text with
  | error located => simp [hread] at h
  | ok tree =>
    cases hflatten : (flatten tree).result with
    | ok store => simp [hread, hflatten, Except.map] at h
    | error error =>
      obtain rfl : error = .unreadable path fault := by
        simpa [hread, hflatten, Except.map] using h
      by_cases hroot : tree.IsObject
      · obtain ⟨leaf, -, -, herror⟩ := exists_leaf_of_flatten_error hroot hflatten
        cases herror
      · simp [flatten_of_not_isObject hroot] at hflatten

/-! ### The whole tree -/

/-- Flattening refuses every root but an object. It fails at the first leaf that is null or a
boolean, and else collects all leaves. The log is that of the leaves before the failure, and each
leaf of a tree without failure has a place in the store or a warning. -/
theorem flatten_folds_leaves (tree : Json) :
    ((∃ kind, (flatten tree).result = .error (.invalidRoot kind)) ↔ ¬ tree.IsObject) ∧
    (¬ tree.IsObject → flatten tree = ⟨[], .error (.invalidRoot tree.kind)⟩) ∧
    (tree.IsObject →
      ((∃ error, (flatten tree).result = .error error) ↔ ∃ leaf ∈ tree.leaves, leaf.Refused) ∧
      (∀ before leaf after, tree.leaves = before ++ leaf :: after →
        (∀ other ∈ before, ¬ other.Refused) → leaf.Refused →
        flatten tree =
          ⟨logOf before, .error (.unsupportedLeaf leaf.path leaf.value.toJson.kind)⟩) ∧
      ((∀ leaf ∈ tree.leaves, ¬ leaf.Refused) →
        ∃ store, flatten tree = ⟨logOf tree.leaves, .ok store⟩ ∧ Collects store tree.leaves ∧
          store.size + warnings (flatten tree).log = tree.leaves.length)) := by
  refine ⟨⟨?_, ?_⟩, flatten_of_not_isObject, fun hobject => ⟨⟨?_, ?_⟩, ?_, ?_⟩⟩
  · rintro ⟨kind, hkind⟩ hobject
    obtain ⟨leaf, -, -, herror⟩ := exists_leaf_of_flatten_error hobject hkind
    cases herror
  · intro hroot
    rw [flatten_of_not_isObject hroot]
    exact ⟨_, rfl⟩
  · rintro ⟨error, herror⟩
    obtain ⟨leaf, hmem, hleaf, -⟩ := exists_leaf_of_flatten_error hobject herror
    exact ⟨leaf, hmem, hleaf⟩
  · intro hrefused
    obtain ⟨before, leaf, after, hsplit, hbefore, hleaf⟩ := exists_first_refused hrefused
    rw [flatten_of_refused hobject hsplit hbefore hleaf]
    exact ⟨_, rfl⟩
  · intro before leaf after hsplit hbefore hleaf
    exact flatten_of_refused hobject hsplit hbefore hleaf
  · intro hleaves
    obtain ⟨store, hflatten, hstore⟩ := exists_store_of_flatten hobject hleaves
    refine ⟨store, hflatten, hstore, ?_⟩
    have hcount := length_eraseDups_add_warnings_logAfter [] hleaves
    rw [List.nil_append, ← hstore.keys_eq] at hcount
    rw [hflatten]
    simpa [Store.size, Store.keys, logOf] using hcount

/-- A tree that reaches one path by two ways, and an array behind it. -/
def spelledTwice : Json :=
  .object
    [("a.b", .string "x"),
      ("a", .object [("b", .number (.integer 1)), ("c", .array [.string "y"])])]

theorem flatten_folds_leaves_spelledTwice :
    spelledTwice.leaves.map Leaf.path = ["a.b", "a.b", "a.c.0"] ∧
    ∃ store, flatten spelledTwice = ⟨logOf spelledTwice.leaves, .ok store⟩ ∧
      Collects store spelledTwice.leaves ∧
      store.size + warnings (flatten spelledTwice).log = 3 :=
  ⟨by decide, ((flatten_folds_leaves spelledTwice).2.2 ⟨_, rfl⟩).2.2 (by decide)⟩

end Catalog

end Phrasebook
