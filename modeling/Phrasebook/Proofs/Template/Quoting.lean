import Phrasebook.Proofs.Json.Printing
import Phrasebook.Proofs.Script.Spelling

/-!
# Quoting loses nothing

Between its quotes, a quoted text is made of plain characters and of escapes, which are a backslash
and one more character each. Backslashes in front of a quote escape each other in pairs, so a quote
inside is always escaped, and the closing quote never is. A reader that only looks for the first
quote that is not escaped finds the end, and one that reads the escapes gets the text back.

Names are spelled bare or quoted. The first character tells which, so a spelling stands for one
name.
-/

namespace Phrasebook

namespace Text

/-! ### Bare quotes -/

/-- The number of backslashes at the end of a text. -/
def trailingBackslashes (text : Text) : Nat := (text.reverse.takeWhile (· = '\\')).length

/-- A quote stands at a place, and backslashes in front of it escape only each other. -/
def IsBareQuote (text : Text) (i : Nat) : Prop :=
  text[i]? = some '"' ∧ Even (trailingBackslashes (text.take i))

instance (text : Text) (i : Nat) : Decidable (IsBareQuote text i) :=
  inferInstanceAs (Decidable (_ ∧ _))

section Front

variable {c : Char} (text : Text)

theorem trailingBackslashes_cons (hc : c ≠ '\\') :
    trailingBackslashes (c :: text) = trailingBackslashes text := by
  rw [trailingBackslashes, List.reverse_cons, List.takeWhile_append]
  split_ifs with hall
  · simp [hc, trailingBackslashes, hall]
  · rfl

/-- An escape in front does not change which quotes are bare. -/
theorem even_trailingBackslashes_escape (c : Char) :
    Even (trailingBackslashes ('\\' :: c :: text)) ↔ Even (trailingBackslashes text) := by
  have hreverse : ('\\' :: c :: text).reverse = text.reverse ++ [c, '\\'] := by simp
  rw [trailingBackslashes, hreverse, List.takeWhile_append]
  split_ifs with hall
  · rw [← trailingBackslashes] at hall
    by_cases hc : c = '\\'
    · simp [hc, hall, Nat.even_add]
    · simp [hc, hall]
  · rfl

theorem isBareQuote_cons_succ (hc : c ≠ '\\') (i : Nat) :
    IsBareQuote (c :: text) (i + 1) ↔ IsBareQuote text i := by
  rw [IsBareQuote, IsBareQuote, List.getElem?_cons_succ, List.take_succ_cons,
    trailingBackslashes_cons _ hc]

theorem isBareQuote_escape_add_two (c : Char) (i : Nat) :
    IsBareQuote ('\\' :: c :: text) (i + 2) ↔ IsBareQuote text i := by
  rw [IsBareQuote, IsBareQuote, List.getElem?_cons_succ, List.getElem?_cons_succ,
    List.take_succ_cons, List.take_succ_cons, even_trailingBackslashes_escape]

end Front

/-! ### What stands between the quotes -/

/-- Plain characters, and escapes of a backslash and one more character, none of them below the
space. -/
inductive IsQuotedBody : Text → Prop where
  | nil : IsQuotedBody []
  | plain {c : Char} {rest : Text} (hquote : c ≠ '"') (hslash : c ≠ '\\')
      (hcontrol : 0x20 ≤ c.toNat) (hrest : IsQuotedBody rest) : IsQuotedBody (c :: rest)
  | escape {c : Char} {rest : Text} (hcontrol : 0x20 ≤ c.toNat) (hrest : IsQuotedBody rest) :
      IsQuotedBody ('\\' :: c :: rest)

namespace IsQuotedBody

theorem append {a b : Text} (ha : IsQuotedBody a) (hb : IsQuotedBody b) :
    IsQuotedBody (a ++ b) := by
  induction ha with
  | nil => exact hb
  | plain hquote hslash hcontrol _ ih => exact .plain hquote hslash hcontrol ih
  | escape hcontrol _ ih => exact .escape hcontrol ih

theorem le_toNat {text : Text} (h : IsQuotedBody text) : ∀ c ∈ text, 0x20 ≤ c.toNat := by
  induction h with
  | nil => simp
  | plain _ _ hcontrol _ ih => exact List.forall_mem_cons.mpr ⟨hcontrol, ih⟩
  | escape hcontrol _ ih =>
    exact List.forall_mem_cons.mpr ⟨by decide, List.forall_mem_cons.mpr ⟨hcontrol, ih⟩⟩

/-- The quote behind a body is the only bare one. -/
theorem isBareQuote_iff {text : Text} (h : IsQuotedBody text) (i : Nat) :
    IsBareQuote (text ++ ['"']) i ↔ i = text.length := by
  induction h generalizing i with
  | nil =>
    cases i with
    | zero => decide
    | succ i => simp [IsBareQuote]
  | @plain c rest hquote hslash _ _ ih =>
    cases i with
    | zero => simp [IsBareQuote, hquote]
    | succ i =>
      rw [List.cons_append, isBareQuote_cons_succ _ hslash, ih, List.length_cons]
      omega
  | @escape c rest _ _ ih =>
    match i with
    | 0 => simp [IsBareQuote]
    | 1 => simp [IsBareQuote, trailingBackslashes]
    | i + 2 =>
      rw [List.cons_append, List.cons_append, isBareQuote_escape_add_two, ih, List.length_cons,
        List.length_cons]
      omega

end IsQuotedBody

theorem plain_hexDigit (n : Nat) :
    hexDigit n ≠ '"' ∧ hexDigit n ≠ '\\' ∧ 0x20 ≤ (hexDigit n).toNat := by
  have hall : ∀ k < 16, Nat.digitChar k ≠ '"' ∧ Nat.digitChar k ≠ '\\' ∧
      0x20 ≤ (Nat.digitChar k).toNat := by
    decide
  exact hall (n % 16) (Nat.mod_lt n (by decide))

theorem isQuotedBody_escape (c : Char) : IsQuotedBody (escape c) := by
  have hletter {letter : Char} (h : 0x20 ≤ letter.toNat) : IsQuotedBody ['\\', letter] :=
    .escape h .nil
  rw [escape]
  split_ifs with hquote hslash _ _ _ _ _ hcontrol
  iterate 7 exact hletter (by decide)
  · obtain ⟨hquote₁, hslash₁, hcontrol₁⟩ := plain_hexDigit (c.toNat / 16)
    obtain ⟨hquote₂, hslash₂, hcontrol₂⟩ := plain_hexDigit c.toNat
    exact .escape (by decide) (.plain (by decide) (by decide) (by decide)
      (.plain (by decide) (by decide) (by decide)
        (.plain hquote₁ hslash₁ hcontrol₁ (.plain hquote₂ hslash₂ hcontrol₂ .nil))))
  · exact .plain hquote hslash (Nat.not_lt.mp hcontrol) .nil

theorem isQuotedBody_flatMap_escape (text : Text) : IsQuotedBody (text.flatMap escape) := by
  induction text with
  | nil => exact .nil
  | cons c rest ih => exact (isQuotedBody_escape c).append ih

/-- Only the first and the last character of a quoted text are bare quotes. -/
theorem isBareQuote_quote_iff (text : Text) (i : Nat) :
    IsBareQuote (quote text) i ↔ i = 0 ∨ i + 1 = (quote text).length := by
  rw [quote, List.cons_append]
  cases i with
  | zero => simp [IsBareQuote, trailingBackslashes]
  | succ i =>
    rw [isBareQuote_cons_succ _ (by decide), (isQuotedBody_flatMap_escape text).isBareQuote_iff,
      List.length_cons, List.length_append, List.length_singleton]
    omega

theorem le_toNat_of_mem_quote {text : Text} {c : Char} (h : c ∈ quote text) : 0x20 ≤ c.toNat := by
  rw [quote, List.cons_append, List.mem_cons, List.mem_append, List.mem_singleton] at h
  rcases h with rfl | hbody | rfl
  · decide
  · exact (isQuotedBody_flatMap_escape text).le_toNat c hbody
  · decide

/-- A quoted text starts another one only if it is the same. -/
theorem quote_prefix_iff {a b : Text} : quote a <+: quote b ↔ a = b := by
  refine ⟨fun h => ?_, fun h => h ▸ List.prefix_rfl⟩
  obtain ⟨rest, hrest⟩ := h
  have ha := Json.scanString_quote a rest 0
  have hb := Json.scanString_quote b [] 0
  rw [hrest] at ha
  rw [List.append_nil, ha] at hb
  exact (Prod.mk.inj (Except.ok.inj hb)).1

end Text

namespace Template

open Text

/-! ### Spelled names -/

theorem property_injective : Function.Injective property := by
  have hmixed {a b : Text} (ha : isIdentifier a = true) : a ≠ quote b := by
    have hquote : isIdentifierStart '"' = false := by decide
    have hne := Script.ne_cons_of_isIdentifier ha hquote [] (b.flatMap escape ++ ['"'])
    rwa [List.append_nil] at hne
  intro a b h
  rw [property, property] at h
  split_ifs at h with ha hb hb
  · exact h
  · exact absurd h (hmixed ha)
  · exact absurd h.symm (hmixed hb)
  · exact quote_prefix_iff.mp (h ▸ List.prefix_rfl)

/-- An access is read back as the property that it reads, so it tells the name. -/
theorem access_injective (how : Access) : Function.Injective (access how) := by
  have hread (name : Text) :
      Script.member (Script.below (access how name ++ []).length) (access how name ++ []) =
        some (Script.recordField (how = .optional) name, []) :=
    Script.member_access le_rfl rfl
  intro a b h
  have ha := hread a
  rw [h, hread b] at ha
  have hfield := (Prod.mk.inj (Option.some.inj ha)).1
  rw [Script.recordField, Script.recordField] at hfield
  injection hfield with _ _ hname
  injection hname with hname
  exact hname.symm

/-- Quoting loses nothing, and quoted texts and spelled names can be told apart. A quoted text is
read back, alone and in front of any other text. It has no character below the space, and its only
quotes that are not escaped are its first and its last character, so it is no proper start of
another quoted text. Names that are spelled alike, as properties or in accesses of one kind, are the
same. -/
theorem quoting_unambiguous :
    (∀ text,
      Json.read (quote text) = .ok (.string text) ∧
      (∀ rest offset, Json.scanString ⟨quote text ++ rest, offset⟩ =
        .ok (text, ⟨rest, offset + width (quote text)⟩)) ∧
      (∀ c ∈ quote text, 0x20 ≤ c.toNat) ∧
      ∀ i, IsBareQuote (quote text) i ↔ i = 0 ∨ i + 1 = (quote text).length) ∧
    (∀ a b, quote a <+: quote b ↔ a = b) ∧
    (∀ how, Function.Injective (access how)) ∧
    Function.Injective property := by
  refine ⟨fun text => ⟨?_, ?_, ?_, isBareQuote_quote_iff text⟩, fun a b => quote_prefix_iff,
    access_injective, property_injective⟩
  · have hprintable : Json.Printable Json.depthLimit (.string text) := trivial
    exact Json.read_render hprintable
  · exact Json.scanString_quote text
  · exact fun c => le_toNat_of_mem_quote

/-- A backslash in front of a quote, and a control character. -/
def hardText : Text := ['\\', '"', '\x01']

/-- The fourth character is an escaped quote behind three backslashes. -/
theorem quoting_unambiguous_hardText :
    quote hardText = ['"', '\\', '\\', '\\', '"', '\\', 'u', '0', '0', '0', '1', '"'] ∧
    Json.read (quote hardText) = .ok (.string hardText) ∧
    ¬ IsBareQuote (quote hardText) 4 ∧ IsBareQuote (quote hardText) 11 ∧
    (∀ c ∈ quote hardText, 0x20 ≤ c.toNat) ∧
    ¬ quote ['\\'] <+: quote hardText ∧
    property (quote ['0']) ≠ property ['0'] ∧
    access .optional (quote ['0']) ≠ access .optional ['0'] := by
  obtain ⟨hquote, hstart, haccess, hproperty⟩ := quoting_unambiguous
  obtain ⟨hread, -, hcontrol, hbare⟩ := hquote hardText
  exact ⟨by decide, hread, by rw [hbare]; decide, by rw [hbare]; decide, hcontrol,
    by rw [hstart]; decide, hproperty.ne (by decide), (haccess .optional).ne (by decide)⟩

end Template

end Phrasebook
