import Phrasebook.Json.Reader
import Mathlib.Data.Nat.Init
import Mathlib.Tactic.SplitIfs

/-!
# Keys of objects

A JSON text may give a key of an object twice. The value that is read has it once: a key that is
there already keeps its place and takes the new value. So all objects in a value that was read have
distinct keys, at any depth.
-/

namespace Phrasebook.Json

/-! ### Every object in a value -/

mutual
/-- The keys of every object in a value have a property. -/
def EveryObject (P : List Text → Prop) : Json → Prop
  | null => True
  | bool _ => True
  | number _ => True
  | string _ => True
  | array items => EveryItem P items
  | object members => P (members.map Prod.fst) ∧ EveryMember P members

/-- The keys of every object in the items of an array have a property. -/
def EveryItem (P : List Text → Prop) : List Json → Prop
  | [] => True
  | item :: rest => item.EveryObject P ∧ EveryItem P rest

/-- The keys of every object in the values of members have a property. -/
def EveryMember (P : List Text → Prop) : List (Text × Json) → Prop
  | [] => True
  | (_, value) :: rest => value.EveryObject P ∧ EveryMember P rest
end

variable {P : List Text → Prop}

theorem everyItem_iff {items : List Json} :
    EveryItem P items ↔ ∀ item ∈ items, item.EveryObject P := by
  induction items with
  | nil => simp [EveryItem]
  | cons item rest ih => rw [EveryItem, ih, List.forall_mem_cons]

/-! ### Members that come in -/

theorem mem_keys_insertMember {key other : Text} {value : Json} {members : List (Text × Json)} :
    other ∈ (insertMember key value members).map Prod.fst ↔
      other = key ∨ other ∈ members.map Prod.fst := by
  induction members with
  | nil => simp [insertMember]
  | cons first rest ih =>
    obtain ⟨k, v⟩ := first
    rw [insertMember]
    split_ifs with hsame
    · simp [hsame]
    · rw [List.map_cons, List.mem_cons, ih, List.map_cons, List.mem_cons]
      exact or_left_comm

/-- A member that comes in leaves the keys distinct. -/
theorem nodup_keys_insertMember (key : Text) (value : Json) {members : List (Text × Json)}
    (h : (members.map Prod.fst).Nodup) :
    ((insertMember key value members).map Prod.fst).Nodup := by
  induction members with
  | nil => simp [insertMember]
  | cons first rest ih =>
    obtain ⟨k, v⟩ := first
    rw [List.map_cons, List.nodup_cons] at h
    rw [insertMember]
    split_ifs with hsame
    · rwa [List.map_cons, List.nodup_cons]
    · rw [List.map_cons, List.nodup_cons, mem_keys_insertMember, not_or]
      exact ⟨⟨hsame, h.1⟩, ih h.2⟩

theorem EveryMember.insertMember (key : Text) {value : Json} {members : List (Text × Json)}
    (h : EveryMember P members) (hvalue : value.EveryObject P) :
    EveryMember P (insertMember key value members) := by
  induction members with
  | nil => exact ⟨hvalue, trivial⟩
  | cons first rest ih =>
    obtain ⟨k, v⟩ := first
    rw [Json.insertMember]
    split_ifs
    · exact ⟨hvalue, h.2⟩
    · exact ⟨h.1, ih h.2⟩

/-! ### Reading -/

/-- A reading that goes on after another one succeeds if both do. -/
theorem bind_eq_ok_iff {α β : Type} {first : Reading α} {next : α → Reading β} {result : β} :
    (first >>= next) = .ok result ↔ ∃ middle, first = .ok middle ∧ next middle = .ok result := by
  cases first with
  | error located => simp [Bind.bind, Except.bind]
  | ok middle => simp [Bind.bind, Except.bind]

/-- What holds of every item that can be read holds of the items of an array. -/
theorem readItems_forall {α : Type} {item : Cursor → Reading (α × Cursor)} {Q : α → Prop}
    (hitem : ∀ c value after, item c = .ok (value, after) → Q value) {fuel : Nat} {first : Bool}
    {c after : Cursor} {values : List α} (h : readItems item fuel first c = .ok (values, after)) :
    ∀ value ∈ values, Q value := by
  induction fuel generalizing first c values after with
  | zero => exact absurd h (by simp [readItems, Cursor.peekFault, fault])
  | succ fuel ih =>
    rw [readItems, bind_eq_ok_iff] at h
    obtain ⟨next, -, h⟩ := h
    cases next with
    | done c =>
      obtain ⟨rfl, -⟩ := Prod.mk.inj (Except.ok.inj h)
      simp
    | more c =>
      obtain ⟨⟨value, c⟩, hvalue, h⟩ := bind_eq_ok_iff.mp h
      obtain ⟨⟨values, c⟩, hvalues, h⟩ := bind_eq_ok_iff.mp h
      obtain ⟨rfl, -⟩ := Prod.mk.inj (Except.ok.inj h)
      exact List.forall_mem_cons.mpr ⟨hitem _ _ _ hvalue, ih hvalues⟩

/-- What every member of an object keeps is kept over all of them. -/
theorem readMembers_invariant {σ : Type} {member : σ → Text → Cursor → Reading (σ × Cursor)}
    {Q : σ → Prop}
    (hmember : ∀ state key c next after, Q state → member state key c = .ok (next, after) → Q next)
    {fuel : Nat} {first : Bool} {state last : σ} {c after : Cursor} (hstate : Q state)
    (h : readMembers member fuel first state c = .ok (last, after)) : Q last := by
  induction fuel generalizing first state c with
  | zero => exact absurd h (by simp [readMembers, Cursor.peekFault, fault])
  | succ fuel ih =>
    rw [readMembers, bind_eq_ok_iff] at h
    obtain ⟨next, -, h⟩ := h
    cases next with
    | done c =>
      obtain ⟨rfl, -⟩ := Prod.mk.inj (Except.ok.inj h)
      exact hstate
    | more c =>
      obtain ⟨⟨key, c⟩, -, h⟩ := bind_eq_ok_iff.mp h
      obtain ⟨⟨state, c⟩, hnext, h⟩ := bind_eq_ok_iff.mp h
      exact ih (hmember _ _ _ _ _ hstate hnext) h

/-- The members of an object that is being read have distinct keys, and so have all objects in their
values. -/
def Distinct (members : List (Text × Json)) : Prop :=
  (members.map Prod.fst).Nodup ∧ EveryMember List.Nodup members

theorem distinct_of_readMember {value : Cursor → Reading (Json × Cursor)}
    (hvalue : ∀ c v after, value c = .ok (v, after) → v.EveryObject List.Nodup)
    {members next : List (Text × Json)} {key : Text} {c after : Cursor}
    (hmembers : Distinct members) (h : readMember value members key c = .ok (next, after)) :
    Distinct next := by
  obtain ⟨c, -, h⟩ := bind_eq_ok_iff.mp h
  obtain ⟨⟨v, c⟩, hv, h⟩ := bind_eq_ok_iff.mp h
  obtain ⟨rfl, -⟩ := Prod.mk.inj (Except.ok.inj h)
  exact ⟨nodup_keys_insertMember key v hmembers.1,
    hmembers.2.insertMember key (hvalue _ _ _ hv)⟩

/-- A value without parts. -/
def IsScalar : Json → Prop
  | array _ => False
  | object _ => False
  | _ => True

/-- A value without parts is read up to a place. If it is a number, it is scanned as one. -/
structure ReadsScalar (value : Json) (after : Cursor) : Prop where
  isScalar : value.IsScalar
  scanned : ∀ n, value = number n → ∃ start, scanNumber start = .ok (n, after)

theorem readsScalar_of_bind {α : Type} {scan : Reading α} {make : α → Json × Cursor} {value : Json}
    {after : Cursor} (h : (scan >>= fun a => pure (make a)) = .ok (value, after))
    (hmake : ∀ a, scan = .ok a → ReadsScalar (make a).1 (make a).2) : ReadsScalar value after := by
  obtain ⟨a, hscan, h⟩ := bind_eq_ok_iff.mp h
  have hread := hmake a hscan
  rwa [Except.ok.inj h] at hread

/-- A value that is read is a scalar, or an array or an object whose parts are read with less
room. -/
theorem readValue_cases {room : Nat} {c after : Cursor} {value : Json}
    (h : readValue room c = .ok (value, after)) :
    ReadsScalar value after ∨
      (∃ less items start, room = less + 1 ∧ value = array items ∧
        readArray (readValue less) start = .ok (items, after)) ∨
      ∃ less members start, room = less + 1 ∧ value = object members ∧
        readObject (readMember (readValue less)) [] start = .ok (members, after) := by
  rw [readValue.eq_def] at h
  dsimp only at h
  split at h
  · simp [Cursor.peekFault, fault] at h
  · -- The first character tells the kind: three words, numbers and strings, then the containers.
    split_ifs at h
    · exact .inl (readsScalar_of_bind h fun _ _ => ⟨trivial, nofun⟩)
    · exact .inl (readsScalar_of_bind h fun _ _ => ⟨trivial, nofun⟩)
    · exact .inl (readsScalar_of_bind h fun _ _ => ⟨trivial, nofun⟩)
    · refine .inl (readsScalar_of_bind h fun _ hscan => ⟨trivial, fun n hn => ?_⟩)
      obtain rfl := number.inj hn
      exact ⟨_, hscan⟩
    · exact .inl (readsScalar_of_bind h fun _ _ => ⟨trivial, nofun⟩)
    · cases room with
      | zero => simp [Cursor.peekFault, fault] at h
      | succ less =>
        obtain ⟨⟨items, c⟩, hitems, h⟩ := bind_eq_ok_iff.mp h
        obtain ⟨rfl, rfl⟩ := Prod.mk.inj (Except.ok.inj h)
        exact .inr (.inl ⟨less, items, _, rfl, rfl, hitems⟩)
    · cases room with
      | zero => simp [Cursor.peekFault, fault] at h
      | succ less =>
        obtain ⟨⟨members, c⟩, hmembers, h⟩ := bind_eq_ok_iff.mp h
        obtain ⟨rfl, rfl⟩ := Prod.mk.inj (Except.ok.inj h)
        exact .inr (.inr ⟨less, members, _, rfl, rfl, hmembers⟩)
    · simp [Cursor.peekFault, fault] at h

/-- No object in a value that is read has a key twice. -/
theorem everyObject_nodup_of_readValue {room : Nat} {c after : Cursor} {value : Json}
    (h : readValue room c = .ok (value, after)) : value.EveryObject List.Nodup := by
  -- The parts of a value are read with less room than the value.
  induction room using Nat.strong_induction_on generalizing c value after with
  | _ room ih =>
    rcases readValue_cases h with hscalar | ⟨less, items, start, rfl, rfl, hitems⟩ |
      ⟨less, members, start, rfl, rfl, hmembers⟩
    · cases value with
      | array items => exact hscalar.isScalar.elim
      | object members => exact hscalar.isScalar.elim
      | _ => trivial
    · exact everyItem_iff.mpr
        (readItems_forall (fun _ _ _ hvalue => ih less (Nat.lt_succ_self less) hvalue) hitems)
    · have hstart : Distinct [] := ⟨List.nodup_nil, trivial⟩
      refine readMembers_invariant (Q := Distinct) ?_ hstart hmembers
      intro state key c next after hstate hnext
      exact distinct_of_readMember (fun _ _ _ hvalue => ih less (Nat.lt_succ_self less) hvalue)
        hstate hnext

/-- A text that is read starts with the value that is read from it. -/
theorem exists_readValue_of_read {text : Text} {value : Json} (h : read text = .ok value) :
    ∃ after, readValue depthLimit ⟨text, 0⟩ = .ok (value, after) := by
  obtain ⟨⟨found, c⟩, hfound, h⟩ := bind_eq_ok_iff.mp h
  have hsame : found = value := by
    simp only [finish] at h
    split_ifs at h
    · exact Except.ok.inj h
    · simp [Cursor.peekFault, fault] at h
  exact ⟨c, hsame ▸ hfound⟩

/-- No object in a value that was read has a key twice. -/
theorem everyObject_nodup_of_read {text : Text} {value : Json} (h : read text = .ok value) :
    value.EveryObject List.Nodup := by
  obtain ⟨after, hvalue⟩ := exists_readValue_of_read h
  exact everyObject_nodup_of_readValue hvalue

end Phrasebook.Json
