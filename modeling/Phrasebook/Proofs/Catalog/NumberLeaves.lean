import Phrasebook.Proofs.Catalog.Leaves
import Phrasebook.Proofs.Json.NumberTexts
import Phrasebook.Proofs.Pattern.Parsing

/-!
# Number leaves

A number of a tree is compiled from its text. The text has no braces, so it is a literal from its
first character to its last one. As it can be read back, the text of a number says which number it
is.
-/

namespace Phrasebook

/-- The number at a leaf. -/
def Leaf.number? (leaf : Leaf) : Option Number :=
  match leaf.value with
  | .number n => some n
  | _ => none

namespace Json

/-- The numbers among the leaves of a tree. -/
def numbers (tree : Json) : List Number := tree.leaves.filterMap Leaf.number?

/-! ### Numbers of trees that were read -/

theorem exists_item_of_mem_itemLeaves {steps : List Text} {position : Nat} {items : List Json}
    {leaf : Leaf} (h : leaf ∈ itemLeaves steps position items) :
    ∃ item ∈ items, ∃ inner, leaf ∈ item.leavesAt inner := by
  induction items generalizing position with
  | nil => exact absurd h List.not_mem_nil
  | cons item rest ih =>
    rcases List.mem_append.mp h with hitem | hrest
    · exact ⟨item, by simp, _, hitem⟩
    · obtain ⟨other, hother, hleaf⟩ := ih hrest
      exact ⟨other, by simp [hother], hleaf⟩

theorem exists_member_of_mem_memberLeaves {steps : List Text} {members : List (Text × Json)}
    {leaf : Leaf} (h : leaf ∈ memberLeaves steps members) :
    ∃ member ∈ members, ∃ inner, leaf ∈ member.2.leavesAt inner := by
  induction members with
  | nil => exact absurd h List.not_mem_nil
  | cons member rest ih =>
    rcases List.mem_append.mp h with hmember | hrest
    · exact ⟨member, by simp, _, hmember⟩
    · obtain ⟨other, hother, hleaf⟩ := ih hrest
      exact ⟨other, by simp [hother], hleaf⟩

/-- All numbers in a value are valid. -/
def NumbersValid (value : Json) : Prop :=
  ∀ steps, ∀ leaf ∈ value.leavesAt steps, ∀ n ∈ leaf.number?, n.Valid

theorem mem_insertMember {key : Text} {value : Json} {members : List (Text × Json)}
    {member : Text × Json} (h : member ∈ insertMember key value members) :
    member.2 = value ∨ member ∈ members := by
  induction members with
  | nil =>
    rw [insertMember, List.mem_singleton] at h
    exact .inl (congrArg Prod.snd h)
  | cons first rest ih =>
    obtain ⟨k, v⟩ := first
    rw [insertMember] at h
    split_ifs at h with hsame
    · rcases List.mem_cons.mp h with rfl | hrest
      · exact .inl rfl
      · exact .inr (List.mem_cons_of_mem _ hrest)
    · rcases List.mem_cons.mp h with rfl | hrest
      · exact .inr List.mem_cons_self
      · exact (ih hrest).imp_right (List.mem_cons_of_mem _)

/-- All numbers in a value that is read are valid. -/
theorem numbersValid_of_readValue {room : Nat} {c after : Cursor} {value : Json}
    (h : readValue room c = .ok (value, after)) : value.NumbersValid := by
  induction room using Nat.strong_induction_on generalizing c value after with
  | _ room ih =>
    rcases readValue_cases h with hscalar | ⟨less, items, start, rfl, rfl, hitems⟩ |
      ⟨less, members, start, rfl, rfl, hmembers⟩
    · intro steps leaf hleaf n hn
      cases value with
      | array items => exact hscalar.isScalar.elim
      | object members => exact hscalar.isScalar.elim
      | number m =>
        obtain rfl := List.mem_singleton.mp hleaf
        obtain ⟨start, hscan⟩ := hscalar.scanned m rfl
        cases hn
        exact valid_of_scanNumber hscan
      | _ =>
        obtain rfl := List.mem_singleton.mp hleaf
        cases hn
    · intro steps leaf hleaf
      obtain ⟨item, hitem, inner, hinner⟩ := exists_item_of_mem_itemLeaves hleaf
      have hvalid := readItems_forall (fun _ _ _ hvalue => ih less (Nat.lt_succ_self less) hvalue)
        hitems item hitem
      exact hvalid inner leaf hinner
    · intro steps leaf hleaf
      obtain ⟨member, hmember, inner, hinner⟩ := exists_member_of_mem_memberLeaves hleaf
      have hvalid : ∀ member ∈ members, member.2.NumbersValid := by
        refine readMembers_invariant (Q := fun members => ∀ member ∈ members, member.2.NumbersValid)
          ?_ (by simp) hmembers
        intro state key c next after hstate hnext
        obtain ⟨c, -, hnext⟩ := bind_eq_ok_iff.mp hnext
        obtain ⟨⟨v, c⟩, hv, hnext⟩ := bind_eq_ok_iff.mp hnext
        obtain ⟨rfl, -⟩ := Prod.mk.inj (Except.ok.inj hnext)
        intro member hmember
        rcases mem_insertMember hmember with hnew | hold
        · rw [hnew]
          exact ih less (Nat.lt_succ_self less) hv
        · exact hstate member hold
      exact hvalid member hmember inner leaf hinner

/-- All numbers of a tree that was read are valid. -/
theorem valid_of_mem_numbers {text : Text} {tree : Json} {n : Number}
    (h : read text = .ok tree) (hn : n ∈ tree.numbers) : n.Valid := by
  obtain ⟨after, hvalue⟩ := exists_readValue_of_read h
  obtain ⟨leaf, hleaf, hnumber⟩ := List.mem_filterMap.mp hn
  exact numbersValid_of_readValue hvalue [] leaf hleaf n hnumber

end Json

/-! ### Texts without braces -/

/-- A text without braces is compiled to itself. -/
theorem Template.compile_of_braceFree {text : Text} (hnil : text ≠ [])
    (h : Pattern.BraceFree text) : compile text = ⟨Text.ticked text, [], []⟩ := by
  have hchunked : Pattern.Chunked [.literal text] :=
    ⟨by simpa using ⟨hnil, h⟩, List.isChain_singleton _⟩
  have hscan := Pattern.ofText_spell hchunked
  have hspell : Pattern.spell [.literal text] = text := List.append_nil text
  rw [hspell] at hscan
  simp [compile, Pattern.parse, Pattern.parseAt_eq, Pattern.nodesWith, hscan, Pattern.place,
    Pattern.Parsed.append, Pattern.Parsed.concat, Pattern.Scan.diagnostics, code, bodyCode,
    nodeCode, names, addBodyNames, addNodeNames]

theorem Json.Numeral.braceFree_spelling (n : Json.Numeral) : Pattern.BraceFree n.spelling := by
  intro c hc
  rcases Json.Numeral.mem_spelling hc with hdigit | rfl | rfl | rfl | ⟨rfl, -⟩
  · constructor
    · rintro rfl
      cases hdigit
    · rintro rfl
      cases hdigit
  all_goals decide

namespace Catalog

/-- Numbers have canonical texts. A number of a tree that was read is an integer of at most 64 bits
or a double. Its text is read back as a number with the same text, which is the integer itself, or a
number to which the double is the nearest one. The text has an exponent exactly if the number is a
double other than zero that is below the double nearest to 10⁻⁶ or not below 10²¹. As a pattern the
text is compiled to itself in backticks, without variables and without diagnostics. -/
theorem number_text_canonical {text : Text} {tree : Json} {n : Number}
    (hread : Json.read text = .ok tree) (hn : n ∈ tree.numbers) :
    n.Valid ∧
    (∃ m, Json.read n.text = .ok (.number m) ∧ n.RereadAs m) ∧
    Double.millionth.IsNearest (10 ^ (-6 : Int)) ∧
    (('e' ∈ n.text ∨ 'E' ∈ n.text) ↔
      ∃ x, n = .double x ∧ x.toRat ≠ 0 ∧
        (|x.toRat| < Double.millionth.toRat ∨ 10 ^ 21 ≤ |x.toRat|)) ∧
    ∀ key store, (flattenValue key (.number n) store).result =
      .ok (store.insert ⟨key, n.text, ⟨Text.ticked n.text, [], []⟩⟩) := by
  have hvalid := Json.valid_of_mem_numbers hread hn
  obtain ⟨numeral, m, hspelling, hnumber, hm, hexponent⟩ := Number.exists_numeral hvalid
  have hreread := Json.read_spelling hnumber
  have hletter := numeral.exponent_letter_iff
  have hfree := numeral.braceFree_spelling
  obtain ⟨c, more, hcons, -⟩ := numeral.exists_spelling_eq_cons
  have hnil : n.text ≠ [] := by simp [← hspelling, hcons]
  rw [hspelling] at hreread hletter hfree
  refine ⟨hvalid, ⟨m, hreread, hm⟩, Double.isNearest_millionth, ?_, fun key store => ?_⟩
  · rw [hletter, hexponent]
    simp only [Double.beyond_bounds_iff]
  · rw [flattenValue, Flattening.leaf, Entry.compile, Template.compile_of_braceFree hnil hfree]

/-- A double that is written as an integer of 64 bits, but not as the one that it is. -/
def wide : Number := .double ⟨false, (2 ^ 63 + 2048) * Double.one⟩

theorem number_text_canonical_wide :
    wide.text = "9223372036854778000" ∧
    ∃ tree, Json.read "\x7b\"a\":[9223372036854777856.0]\x7d" = .ok tree ∧ wide ∈ tree.numbers ∧
      wide.Valid ∧
      (∃ m, Json.read wide.text = .ok (.number m) ∧ wide.RereadAs m) ∧
      Double.millionth.IsNearest (10 ^ (-6 : Int)) ∧
      (('e' ∈ wide.text ∨ 'E' ∈ wide.text) ↔
        ∃ x, wide = .double x ∧ x.toRat ≠ 0 ∧
          (|x.toRat| < Double.millionth.toRat ∨ 10 ^ 21 ≤ |x.toRat|)) ∧
      ∀ key store, (flattenValue key (.number wide) store).result =
        .ok (store.insert ⟨key, wide.text, ⟨Text.ticked wide.text, [], []⟩⟩) := by
  have hnumbers : (Json.read "\x7b\"a\":[9223372036854777856.0]\x7d").toOption.map Json.numbers =
      some [wide] := by
    decide +kernel
  refine ⟨by decide +kernel, ?_⟩
  cases hread : Json.read "\x7b\"a\":[9223372036854777856.0]\x7d" with
  | error located =>
    rw [hread] at hnumbers
    cases hnumbers
  | ok tree =>
    rw [hread] at hnumbers
    have hmem : wide ∈ tree.numbers := by
      rw [Option.some.inj hnumbers]
      exact List.mem_singleton_self wide
    exact ⟨tree, rfl, hmem, number_text_canonical hread hmem⟩

end Catalog

end Phrasebook
