import Phrasebook.Json.Reader
import Phrasebook.Proofs.Json.Numerals

/-!
# Printed values are read back

The text of a value is read back as that value, if its numbers are integers of 64 bits, no object
has a key twice, and arrays and objects are not nested too deeply. The text holds no line feed, so
it can be a line of its own.
-/

namespace Phrasebook.Json

open Text

/-! ### Strings -/

/-- The letters of escapes. -/
theorem scanStringRest_letter {letter c : Char} (hletter : unescape? letter = some c)
    (hu : letter ≠ 'u') (offset : Nat) (rest : Text) :
    scanStringRest offset ('\\' :: letter :: rest) =
      consChar c (scanStringRest (offset + 2) rest) := by
  rw [scanStringRest.eq_def]
  simp [hletter, hu]

theorem utf8Size_hexDigit (n : Nat) : (hexDigit n).utf8Size = 1 := by
  have hall : ∀ k < 16, (Nat.digitChar k).utf8Size = 1 := by decide
  exact hall (n % 16) (Nat.mod_lt n (by decide))

theorem hexValue4?_hexDigit {n : Nat} (h : n < 0x20) :
    hexValue4? '0' '0' (hexDigit (n / 16)) (hexDigit n) = some n := by
  have hall : ∀ k < 0x20, hexValue4? '0' '0' (hexDigit (k / 16)) (hexDigit k) = some k := by
    decide
  exact hall n h

/-- One character of a quoted text is read back. -/
theorem scanStringRest_escape (c : Char) (offset : Nat) (rest : Text) :
    scanStringRest offset (escape c ++ rest) =
      consChar c (scanStringRest (offset + width (escape c)) rest) := by
  rw [escape]
  split_ifs with h₁ h₂ h₃ h₄ h₅ h₆ h₇ h₈
  · subst h₁; exact scanStringRest_letter rfl (by decide) offset rest
  · subst h₂; exact scanStringRest_letter rfl (by decide) offset rest
  · subst h₃; exact scanStringRest_letter rfl (by decide) offset rest
  · subst h₄; exact scanStringRest_letter rfl (by decide) offset rest
  · subst h₅; exact scanStringRest_letter rfl (by decide) offset rest
  · subst h₆; exact scanStringRest_letter rfl (by decide) offset rest
  · subst h₇; exact scanStringRest_letter rfl (by decide) offset rest
  · have hvalue := hexValue4?_hexDigit h₈
    have hsurrogate : isLowSurrogate c.toNat = false ∧ isHighSurrogate c.toNat = false := by
      simp [isLowSurrogate, isHighSurrogate]
      omega
    have hwidth : width ['\\', 'u', '0', '0', hexDigit (c.toNat / 16), hexDigit c.toNat] = 6 := by
      simp only [width_cons, width_nil, utf8Size_hexDigit]
      rfl
    simp only [List.cons_append, List.nil_append]
    rw [scanStringRest.eq_def]
    simp [hvalue, hsurrogate, hwidth]
  · simp only [List.cons_append, List.nil_append]
    rw [scanStringRest.eq_def]
    simp [h₁, h₂, h₈]

theorem scanStringRest_flatMap_escape (text rest : Text) (offset : Nat) :
    scanStringRest offset (text.flatMap escape ++ '"' :: rest) =
      .ok (text, ⟨rest, offset + width (text.flatMap escape) + 1⟩) := by
  induction text generalizing offset with
  | nil => simp [scanStringRest.eq_def]
  | cons c text ih =>
    rw [List.flatMap_cons, List.append_assoc, scanStringRest_escape, ih, width_append, consChar,
      Nat.add_assoc offset]

/-- A quoted text is read back. -/
theorem scanString_quote (text rest : Text) (offset : Nat) :
    scanString ⟨quote text ++ rest, offset⟩ = .ok (text, ⟨rest, offset + width (quote text)⟩) := by
  have hquote : ('"').utf8Size = 1 := rfl
  have hrest : quote text ++ rest = '"' :: (text.flatMap escape ++ '"' :: rest) := by
    simp [quote]
  rw [hrest, scanString, List.tail_cons, scanStringRest_flatMap_escape]
  simp only [quote, List.cons_append, width_cons, width_append, width_nil, hquote]
  congr 3
  omega

/-! ### Values -/

/-- A value that is read back from its text, with room for so many levels of arrays and objects. -/
def Printable : (room : Nat) → Json → Prop
  | _, null => True
  | _, bool _ => True
  | _, number (.integer n) => Fits n
  | _, number (.double _) => False
  | _, string _ => True
  | 0, array _ => False
  | 0, object _ => False
  | room + 1, array items => ∀ item ∈ items, Printable room item
  | room + 1, object members =>
    (members.map Prod.fst).Nodup ∧ ∀ member ∈ members, Printable room member.2

theorem skipBlanks_cons {c : Char} (h : Cursor.isBlank c = false) (rest : Text) (offset : Nat) :
    Cursor.skipBlanks ⟨c :: rest, offset⟩ = ⟨c :: rest, offset⟩ := by
  simp [Cursor.skipBlanks, h]

/-- A text starts like a value: there are no blanks in front of it, and no bracket is closed. -/
def StartsValue (text : Text) : Prop :=
  ∃ c more, text = c :: more ∧ Cursor.isBlank c = false ∧ c ≠ ']'

theorem StartsValue.append {text : Text} (h : StartsValue text) (rest : Text) :
    StartsValue (text ++ rest) := by
  obtain ⟨c, more, rfl, hc⟩ := h
  exact ⟨c, more ++ rest, rfl, hc⟩

theorem exists_signedDecimal_eq_cons (n : Int) :
    ∃ c more, signedDecimal n = c :: more ∧ (c = '-' ∨ c.isDigit = true) := by
  cases n with
  | ofNat n =>
    obtain ⟨c, more, hmore⟩ := List.exists_cons_of_ne_nil (isDigits_decimal n).ne_nil
    exact ⟨c, more, hmore, .inr ((isDigits_decimal n).digits c (by simp [hmore]))⟩
  | negSucc n => exact ⟨'-', decimal (n + 1), rfl, .inl rfl⟩

theorem ne_of_startsNumber {c d : Char} (hc : c = '-' ∨ c.isDigit = true) (hminus : d ≠ '-')
    (hdigit : d.isDigit = false) : c ≠ d := by
  rintro rfl
  rcases hc with hc | hc
  · exact hminus hc
  · rw [hdigit] at hc
    exact absurd hc (by decide)

theorem not_isBlank_of_startsNumber {c : Char} (hc : c = '-' ∨ c.isDigit = true) :
    Cursor.isBlank c = false := by
  have hspace : c ≠ ' ' := ne_of_startsNumber hc (by decide) (by decide)
  have htab : c ≠ '\t' := ne_of_startsNumber hc (by decide) (by decide)
  have hfeed : c ≠ '\n' := ne_of_startsNumber hc (by decide) (by decide)
  have hreturn : c ≠ '\r' := ne_of_startsNumber hc (by decide) (by decide)
  simp [Cursor.isBlank, hspace, htab, hfeed, hreturn]

theorem startsValue_signedDecimal (n : Int) : StartsValue (signedDecimal n) := by
  obtain ⟨c, more, hmore, hc⟩ := exists_signedDecimal_eq_cons n
  exact ⟨c, more, hmore, not_isBlank_of_startsNumber hc,
    ne_of_startsNumber hc (by decide) (by decide)⟩

theorem startsValue_render {room : Nat} {value : Json} (h : Printable room value) :
    StartsValue (render value) := by
  cases value with
  | null => exact ⟨'n', _, rfl, by decide, by decide⟩
  | bool value => cases value <;> exact ⟨_, _, rfl, by decide, by decide⟩
  | number value =>
    cases value with
    | integer n => exact startsValue_signedDecimal n
    | double x => cases room <;> exact h.elim
  | string value => exact ⟨'"', _, rfl, by decide, by decide⟩
  | array items => cases items <;> exact ⟨'[', _, rfl, by decide, by decide⟩
  | object members => cases members <;> exact ⟨'{', _, rfl, by decide, by decide⟩

/-- A value is read back from its text, whatever follows it. -/
def ReadsBack (reader : Cursor → Reading (Json × Cursor)) (value : Json) : Prop :=
  ∀ rest offset, EndsNumeral rest →
    reader ⟨render value ++ rest, offset⟩ = .ok (value, ⟨rest, offset + width (render value)⟩)

/-! ### Arrays -/

theorem nextItem_close (first : Bool) (rest : Text) (offset : Nat) :
    nextItem first ⟨']' :: rest, offset⟩ = .ok (.done ⟨rest, offset + 1⟩) := by
  simp [nextItem, skipBlanks_cons (c := ']') rfl, Cursor.advance]

theorem nextItem_first {text : Text} (h : StartsValue text) (offset : Nat) :
    nextItem true ⟨text, offset⟩ = .ok (.more ⟨text, offset⟩) := by
  obtain ⟨c, more, rfl, hblank, hclose⟩ := h
  simp [nextItem, skipBlanks_cons hblank, hclose]

theorem nextItem_comma {text : Text} (h : StartsValue text) (offset : Nat) :
    nextItem false ⟨',' :: text, offset⟩ = .ok (.more ⟨text, offset + 1⟩) := by
  obtain ⟨c, more, rfl, hblank, hclose⟩ := h
  simp [nextItem, skipBlanks_cons (c := ',') rfl, Cursor.advance, skipBlanks_cons hblank, hclose]

theorem endsNumeral_renderItems (items : List Json) (rest : Text) :
    EndsNumeral (renderItems items ++ ']' :: rest) := by
  cases items with
  | nil =>
    rintro c ⟨⟩
    decide
  | cons item items =>
    rintro c ⟨⟩
    decide

theorem length_le_length_renderItems (items : List Json) :
    items.length ≤ (renderItems items).length := by
  induction items with
  | nil => exact Nat.zero_le _
  | cons item items ih =>
    simp only [renderItems, List.length_cons, List.length_append, List.cons_append]
    omega

section Items

variable {reader : Cursor → Reading (Json × Cursor)} {items : List Json}
  (hread : ∀ item ∈ items, ReadsBack reader item)
  (hstart : ∀ item ∈ items, StartsValue (render item))

include hread hstart

theorem readItems_renderItems {fuel : Nat} (hfuel : items.length < fuel) (rest : Text)
    (offset : Nat) :
    readItems reader fuel false ⟨renderItems items ++ ']' :: rest, offset⟩ =
      .ok (items, ⟨rest, offset + width (renderItems items) + 1⟩) := by
  induction items generalizing fuel offset with
  | nil =>
    obtain ⟨fuel, rfl⟩ := Nat.exists_eq_add_one.mpr hfuel
    rw [readItems, renderItems, List.nil_append, nextItem_close]
    rfl
  | cons item items ih =>
    obtain ⟨hitem, hitems⟩ := List.forall_mem_cons.mp hread
    obtain ⟨hfirst, hmore⟩ := List.forall_mem_cons.mp hstart
    obtain ⟨fuel, rfl⟩ := Nat.exists_eq_add_one.mpr (Nat.zero_lt_of_lt hfuel)
    have htext : renderItems (item :: items) ++ ']' :: rest =
        ',' :: (render item ++ (renderItems items ++ ']' :: rest)) := by
      simp [renderItems]
    have hcomma : (',').utf8Size = 1 := rfl
    rw [htext, readItems, nextItem_comma (hfirst.append _)]
    simp only [bind, Except.bind, hitem _ _ (endsNumeral_renderItems items rest),
      ih hitems hmore (Nat.lt_of_succ_lt_succ hfuel)]
    simp only [pure, Except.pure, renderItems, List.cons_append, width_cons, width_append, hcomma]
    congr 3
    omega

/-- An array is read back, from behind its opening bracket. -/
theorem readArray_render (rest : Text) (offset : Nat) :
    ∃ inside, render (array items) ++ rest = '[' :: inside ∧
      readArray reader ⟨inside, offset + 1⟩ =
        .ok (items, ⟨rest, offset + width (render (array items))⟩) := by
  have hopen : ('[').utf8Size = 1 := rfl
  have hclose : width ("]" : Text) = 1 := rfl
  cases items with
  | nil => exact ⟨']' :: rest, rfl, rfl⟩
  | cons item items =>
    obtain ⟨hitem, hitems⟩ := List.forall_mem_cons.mp hread
    obtain ⟨hfirst, hmore⟩ := List.forall_mem_cons.mp hstart
    refine ⟨render item ++ (renderItems items ++ ']' :: rest), by simp [render], ?_⟩
    have hfuel : items.length < (render item ++ (renderItems items ++ ']' :: rest)).length := by
      have hlength := length_le_length_renderItems items
      simp only [List.length_append, List.length_cons]
      omega
    rw [readArray, readItems, nextItem_first (hfirst.append _)]
    simp only [bind, Except.bind, hitem _ _ (endsNumeral_renderItems items rest),
      readItems_renderItems hitems hmore hfuel]
    simp only [pure, Except.pure, render, List.cons_append, width_cons, width_append, hopen, hclose]
    congr 3
    omega

end Items

/-! ### Objects -/

theorem nextKey_close (first : Bool) (rest : Text) (offset : Nat) :
    nextKey first ⟨'}' :: rest, offset⟩ = .ok (.done ⟨rest, offset + 1⟩) := by
  simp [nextKey, skipBlanks_cons (c := '}') rfl, Cursor.advance]

theorem nextKey_first (key rest : Text) (offset : Nat) :
    nextKey true ⟨quote key ++ rest, offset⟩ = .ok (.more ⟨quote key ++ rest, offset⟩) := by
  simp [nextKey, quote, skipBlanks_cons (c := '"') rfl]

theorem nextKey_comma (key rest : Text) (offset : Nat) :
    nextKey false ⟨',' :: (quote key ++ rest), offset⟩ =
      .ok (.more ⟨quote key ++ rest, offset + 1⟩) := by
  simp [nextKey, quote, skipBlanks_cons (c := ',') rfl, skipBlanks_cons (c := '"') rfl,
    Cursor.advance]

theorem skipColon_colon (rest : Text) (offset : Nat) :
    skipColon ⟨':' :: rest, offset⟩ = .ok ⟨rest, offset + 1⟩ := by
  simp [skipColon, skipBlanks_cons (c := ':') rfl, Cursor.advance]

theorem insertMember_of_not_mem {key : Text} {members : List (Text × Json)}
    (h : key ∉ members.map Prod.fst) (value : Json) :
    insertMember key value members = members ++ [(key, value)] := by
  induction members with
  | nil => rfl
  | cons member members ih =>
    rw [List.map_cons, List.mem_cons, not_or] at h
    rw [insertMember, if_neg (Ne.symm h.1), ih h.2, List.cons_append]

theorem endsNumeral_renderMembers (members : List (Text × Json)) (rest : Text) :
    EndsNumeral (renderMembers members ++ '}' :: rest) := by
  cases members with
  | nil =>
    rintro c ⟨⟩
    decide
  | cons member members =>
    rintro c ⟨⟩
    decide

theorem length_le_length_renderMembers (members : List (Text × Json)) :
    members.length ≤ (renderMembers members).length := by
  induction members with
  | nil => exact Nat.zero_le _
  | cons member members ih =>
    simp only [renderMembers, List.length_cons, List.length_append, List.cons_append]
    omega

section Members

variable {reader : Cursor → Reading (Json × Cursor)}

/-- A member that comes in is read back, from behind its key. -/
theorem readMember_render {key : Text} {value : Json} (hvalue : ReadsBack reader value)
    {before : List (Text × Json)} (hkey : key ∉ before.map Prod.fst) {rest : Text}
    (hrest : EndsNumeral rest) (offset : Nat) :
    readMember reader before key ⟨':' :: (render value ++ rest), offset⟩ =
      .ok (before ++ [(key, value)], ⟨rest, offset + 1 + width (render value)⟩) := by
  rw [readMember, skipColon_colon]
  simp only [bind, Except.bind, hvalue _ _ hrest, insertMember_of_not_mem hkey]
  rfl

variable {members : List (Text × Json)} (hread : ∀ member ∈ members, ReadsBack reader member.2)

include hread

theorem readMembers_renderMembers {fuel : Nat} (hfuel : members.length < fuel)
    {before : List (Text × Json)} (hkeys : ((before ++ members).map Prod.fst).Nodup) (rest : Text)
    (offset : Nat) :
    readMembers (readMember reader) fuel false before
        ⟨renderMembers members ++ '}' :: rest, offset⟩ =
      .ok (before ++ members, ⟨rest, offset + width (renderMembers members) + 1⟩) := by
  -- The members that were read already are carried along, so that no key comes up again.
  induction members generalizing fuel before offset with
  | nil =>
    obtain ⟨fuel, rfl⟩ := Nat.exists_eq_add_one.mpr hfuel
    rw [readMembers, renderMembers, List.nil_append, nextKey_close, List.append_nil]
    rfl
  | cons member members ih =>
    obtain ⟨key, value⟩ := member
    obtain ⟨hvalue, hmore⟩ := List.forall_mem_cons.mp hread
    obtain ⟨fuel, rfl⟩ := Nat.exists_eq_add_one.mpr (Nat.zero_lt_of_lt hfuel)
    have htext : renderMembers ((key, value) :: members) ++ '}' :: rest =
        ',' :: (quote key ++ ':' :: (render value ++ (renderMembers members ++ '}' :: rest))) := by
      simp [renderMembers, renderMember]
    have hcomma : (',').utf8Size = 1 := rfl
    have hcolon : (':').utf8Size = 1 := rfl
    have hkey : key ∉ before.map Prod.fst := by
      rw [List.map_append, List.nodup_append] at hkeys
      intro hmem
      exact hkeys.2.2 key hmem key (by simp) rfl
    have hnext : ((before ++ [(key, value)] ++ members).map Prod.fst).Nodup := by
      simpa using hkeys
    rw [htext, readMembers, nextKey_comma]
    simp only [bind, Except.bind, scanString_quote,
      readMember_render hvalue hkey (endsNumeral_renderMembers members rest),
      ih hmore (Nat.lt_of_succ_lt_succ hfuel) hnext]
    simp only [renderMembers, renderMember, List.cons_append, List.append_assoc, List.nil_append,
      width_cons, width_append, hcomma, hcolon]
    congr 3
    omega

/-- An object is read back, from behind its opening brace. -/
theorem readObject_render (hkeys : (members.map Prod.fst).Nodup) (rest : Text) (offset : Nat) :
    ∃ inside, render (object members) ++ rest = '{' :: inside ∧
      readObject (readMember reader) [] ⟨inside, offset + 1⟩ =
        .ok (members, ⟨rest, offset + width (render (object members))⟩) := by
  have hopen : ('{').utf8Size = 1 := rfl
  have hclose : width ("\x7d" : Text) = 1 := rfl
  have hcolon : (':').utf8Size = 1 := rfl
  cases members with
  | nil => exact ⟨'}' :: rest, rfl, rfl⟩
  | cons member members =>
    obtain ⟨key, value⟩ := member
    obtain ⟨hvalue, hmore⟩ := List.forall_mem_cons.mp hread
    refine ⟨quote key ++ ':' :: (render value ++ (renderMembers members ++ '}' :: rest)),
      by simp [render, renderMember], ?_⟩
    have hfuel : members.length <
        (quote key ++ ':' :: (render value ++ (renderMembers members ++ '}' :: rest))).length := by
      have hlength := length_le_length_renderMembers members
      simp only [List.length_append, List.length_cons]
      omega
    have hnone : key ∉ ([] : List (Text × Json)).map Prod.fst := List.not_mem_nil
    have hfirst : (([] ++ [(key, value)] ++ members).map Prod.fst).Nodup := hkeys
    rw [readObject, readMembers, nextKey_first]
    simp only [bind, Except.bind, scanString_quote,
      readMember_render hvalue hnone (endsNumeral_renderMembers members rest),
      readMembers_renderMembers hmore hfuel hfirst]
    simp only [render, renderMember, List.cons_append, List.append_assoc, List.nil_append,
      width_cons, width_append, hopen, hclose, hcolon]
    congr 3
    omega

end Members

/-! ### All values -/

/-! How a value starts says how it is read. -/

section Starts

variable (room : Nat) (rest : Text) (offset : Nat)

theorem readValue_number {c : Char} (hc : c = '-' ∨ c.isDigit = true) :
    readValue room ⟨c :: rest, offset⟩ =
      (do let (value, after) ← scanNumber ⟨c :: rest, offset⟩; return (number value, after)) := by
  have hother (d : Char) (hminus : d ≠ '-') (hdigit : d.isDigit = false) : c ≠ d :=
    ne_of_startsNumber hc hminus hdigit
  have hblank : Cursor.isBlank c = false := not_isBlank_of_startsNumber hc
  rw [readValue.eq_def, skipBlanks_cons hblank]
  simp only [hother 'n' (by decide) (by decide), hother 't' (by decide) (by decide),
    hother 'f' (by decide) (by decide), if_false, if_pos hc]

theorem readValue_string :
    readValue room ⟨'"' :: rest, offset⟩ =
      (do let (value, after) ← scanString ⟨'"' :: rest, offset⟩; return (string value, after)) := by
  rw [readValue.eq_def, skipBlanks_cons rfl]
  rfl

theorem readValue_array :
    readValue (room + 1) ⟨'[' :: rest, offset⟩ =
      (do let (items, after) ← readArray (readValue room) ⟨rest, offset + 1⟩
          return (array items, after)) := by
  rw [readValue.eq_def, skipBlanks_cons rfl]
  rfl

theorem readValue_object :
    readValue (room + 1) ⟨'{' :: rest, offset⟩ =
      (do let (members, after) ← readObject (readMember (readValue room)) [] ⟨rest, offset + 1⟩
          return (object members, after)) := by
  rw [readValue.eq_def, skipBlanks_cons rfl]
  rfl

end Starts

/-- A printable value is read back, whatever follows it. -/
theorem readsBack_readValue {room : Nat} {value : Json} (h : Printable room value) :
    ReadsBack (readValue room) value := by
  -- The room goes down with each level of arrays and objects, as it does in `Printable`.
  induction room, value using Printable.induct with
  | case1 room =>
    intro rest offset hrest
    rw [readValue.eq_def]
    rfl
  | case2 room value =>
    intro rest offset hrest
    rw [readValue.eq_def]
    cases value <;> rfl
  | case3 room n =>
    intro rest offset hrest
    have hfits : Fits n := by cases room <;> exact h
    obtain ⟨c, more, hmore, hc⟩ := exists_signedDecimal_eq_cons n
    have hscan := scanNumber_signedDecimal hfits hrest offset
    rw [← width_signedDecimal, hmore, List.cons_append] at hscan
    rw [render, Number.text, hmore, List.cons_append, readValue_number room _ offset hc, hscan]
    rfl
  | case4 room x => cases room <;> exact h.elim
  | case5 room value =>
    intro rest offset hrest
    have hscan := scanString_quote value rest offset
    rw [render, quote, List.cons_append, List.cons_append] at *
    rw [readValue_string, hscan]
    rfl
  | case6 items => exact h.elim
  | case7 members => exact h.elim
  | case8 room items ih =>
    intro rest offset hrest
    obtain ⟨inside, hinside, hread⟩ := readArray_render (fun item hitem => ih item (h item hitem))
      (fun item hitem => startsValue_render (h item hitem)) rest offset
    rw [hinside, readValue_array, hread]
    rfl
  | case9 room members ih =>
    intro rest offset hrest
    obtain ⟨hkeys, hmembers⟩ := h
    obtain ⟨inside, hinside, hread⟩ := readObject_render
      (fun member hmember => ih member (hmembers member hmember)) hkeys rest offset
    rw [hinside, readValue_object, hread]
    rfl

/-- A printed value is read back. -/
theorem read_render {value : Json} (h : Printable depthLimit value) :
    read (render value) = .ok value := by
  have hvalue := readsBack_readValue h [] 0 endsNumeral_nil
  rw [List.append_nil] at hvalue
  rw [read, hvalue]
  rfl

/-! ### Lines -/

theorem lineFeed_not_mem_quote (text : Text) : '\n' ∉ quote text := by
  have hdigit (n : Nat) : hexDigit n ≠ '\n' := by
    have hall : ∀ k < 16, Nat.digitChar k ≠ '\n' := by decide
    exact hall (n % 16) (Nat.mod_lt n (by decide))
  have hescape (c : Char) : '\n' ∉ escape c := by
    rw [escape]
    split_ifs with h₁ h₂ h₃ h₄ h₅ h₆ h₇ h₈
    all_goals simp_all [Ne.symm (hdigit _)]
    exact Ne.symm h₅
  simp [quote, hescape]

theorem lineFeed_not_mem_signedDecimal (n : Int) : '\n' ∉ signedDecimal n := by
  cases n with
  | ofNat n => exact not_mem_decimal (by decide) n
  | negSucc n => simpa [signedDecimal] using not_mem_decimal (by decide) (n + 1)

theorem lineFeed_not_mem_renderItems {items : List Json} (h : ∀ item ∈ items, '\n' ∉ render item) :
    '\n' ∉ renderItems items := by
  induction items with
  | nil => exact List.not_mem_nil
  | cons item items ih =>
    obtain ⟨hitem, hitems⟩ := List.forall_mem_cons.mp h
    simp [renderItems, hitem, ih hitems]

theorem lineFeed_not_mem_renderMember {member : Text × Json} (h : '\n' ∉ render member.2) :
    '\n' ∉ renderMember member := by
  obtain ⟨key, value⟩ := member
  simpa [renderMember, lineFeed_not_mem_quote] using h

theorem lineFeed_not_mem_renderMembers {members : List (Text × Json)}
    (h : ∀ member ∈ members, '\n' ∉ render member.2) : '\n' ∉ renderMembers members := by
  induction members with
  | nil => exact List.not_mem_nil
  | cons member members ih =>
    obtain ⟨hmember, hmembers⟩ := List.forall_mem_cons.mp h
    simp [renderMembers, lineFeed_not_mem_renderMember hmember, ih hmembers]

/-- A printed value is one line. -/
theorem lineFeed_not_mem_render {room : Nat} {value : Json} (h : Printable room value) :
    '\n' ∉ render value := by
  induction room, value using Printable.induct with
  | case1 room => decide
  | case2 room value => cases value <;> decide
  | case3 room n => exact lineFeed_not_mem_signedDecimal n
  | case4 room x => cases room <;> exact h.elim
  | case5 room value => exact lineFeed_not_mem_quote value
  | case6 items => exact h.elim
  | case7 members => exact h.elim
  | case8 room items ih =>
    cases items with
    | nil => decide
    | cons item items =>
      have hall (each : Json) (hmem : each ∈ item :: items) : '\n' ∉ render each :=
        ih each (h each hmem)
      obtain ⟨hitem, hitems⟩ := List.forall_mem_cons.mp hall
      simp [render, hitem, lineFeed_not_mem_renderItems hitems]
  | case9 room members ih =>
    cases members with
    | nil => decide
    | cons member members =>
      have hall (each : Text × Json) (hmem : each ∈ member :: members) : '\n' ∉ render each.2 :=
        ih each (h.2 each hmem)
      obtain ⟨hmember, hmembers⟩ := List.forall_mem_cons.mp hall
      simp [render, lineFeed_not_mem_renderMember hmember, lineFeed_not_mem_renderMembers hmembers]

end Phrasebook.Json
