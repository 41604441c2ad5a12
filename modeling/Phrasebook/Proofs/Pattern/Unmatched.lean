import Phrasebook.Proofs.Pattern.Braces
import Phrasebook.Proofs.Pattern.Steps
import Phrasebook.Proofs.Text.Bytes
import Mathlib.Algebra.Order.Group.Int
import Mathlib.Order.Bounds.Basic

/-!
# Braces without a partner

Which braces of a pattern have no partner is a matter of counting: the depth at a position is the
number of opening braces in front of it minus the number of closing ones. A closing brace is stray
where the depth falls below all it has been before, and a brace stays open if the depth is positive
at the end. The complaints about braces say this and nothing else, they come first, and no text
inside of a group gives rise to any.
-/

namespace Phrasebook

namespace Pattern

open Text

/-! ### New lows -/

/-- A character leads below every depth in front of it. -/
def Sinks (front : Text) (c : Char) : Prop :=
  ∀ before, before <+: front → depth (front ++ [c]) < depth before

theorem Sinks.eq_closing {front : Text} {c : Char} (h : Sinks front c) : c = '}' := by
  have hlast := h front (List.prefix_refl front)
  rw [depth_append] at hlast
  exact depth_neg_iff.mp (by omega)

theorem sinks_cons {first c : Char} {front : Text} :
    Sinks (first :: front) c ↔ depth [first] + depth (front ++ [c]) < 0 ∧ Sinks front c := by
  constructor
  · intro h
    refine ⟨?_, fun before hbefore => ?_⟩
    · have hstart := h [] List.nil_prefix
      rwa [List.cons_append, depth_cons, depth_nil] at hstart
    · have hcons := h (first :: before) ((List.prefix_cons_inj first).mpr hbefore)
      rw [List.cons_append, depth_cons, depth_cons first before] at hcons
      omega
  · rintro ⟨hstart, h⟩ before hbefore
    rw [List.cons_append, depth_cons]
    rcases List.prefix_cons_iff.mp hbefore with rfl | ⟨more, rfl, hmore⟩
    · rwa [depth_nil]
    · have hrest := h more hmore
      rw [depth_cons first more]
      omega

namespace Scan

theorem strays_run_nil (s : State) : (run s []).strays = [] := by
  rw [run]
  split_ifs <;> rfl

/-- The stray braces of a scan are where the depth falls to a new low. -/
theorem mem_strays_run {s : State} (h : s.Bounded) {text : Text} {i : Nat} :
    i ∈ (run s text).strays ↔
      ∃ front c back, text = front ++ c :: back ∧ i = s.here + width front ∧
        s.depth + Pattern.depth (front ++ [c]) < s.lowest ∧ Sinks front c := by
  -- The least depth follows the depth. So what falls below it falls below all places in front.
  induction text generalizing s with
  | nil => simp [strays_run_nil]
  | cons first rest ih =>
    have hle := h.le_depth
    have hlowest := h.lowest_next first
    rw [State.depth_next] at hlowest
    rw [run_cons, List.mem_append, h.stray_eq, State.depth_next, ih (h.next first)]
    constructor
    · rintro (hfirst | ⟨front, c, back, rfl, rfl, hlow, hsinks⟩)
      · split_ifs at hfirst with hlow
        · obtain rfl := List.mem_singleton.mp hfirst
          refine ⟨[], first, rest, rfl, rfl, hlow, fun before hbefore => ?_⟩
          rw [List.prefix_nil.mp hbefore, List.nil_append, depth_nil]
          omega
        · simp at hfirst
      · rw [State.depth_next, hlowest] at hlow
        refine ⟨first :: front, c, back, rfl, ?_, ?_, sinks_cons.mpr ⟨by omega, hsinks⟩⟩
        · rw [State.here_next, width_cons, Nat.add_assoc]
        · rw [List.cons_append, depth_cons]
          omega
    · rintro ⟨front, c, back, hsplit, rfl, hlow, hsinks⟩
      cases front with
      | nil =>
        obtain ⟨rfl, rfl⟩ := List.cons_eq_cons.mp hsplit
        rw [List.nil_append] at hlow
        exact .inl (by simp [hlow])
      | cons _ front =>
        obtain ⟨rfl, rfl⟩ := List.cons_eq_cons.mp hsplit
        obtain ⟨-, hrest⟩ := sinks_cons.mp hsinks
        have hlast := hrest [] List.nil_prefix
        rw [depth_nil] at hlast
        rw [List.cons_append, depth_cons] at hlow
        refine .inr ⟨front, c, back, rfl, ?_, ?_, hrest⟩
        · rw [State.here_next, width_cons, Nat.add_assoc]
        · rw [State.depth_next, hlowest]
          omega

/-- Stray braces are found from left to right. -/
theorem pairwise_strays_run {s : State} (h : s.Bounded) (text : Text) :
    (run s text).strays.Pairwise (· < ·) := by
  induction text generalizing s with
  | nil =>
    rw [strays_run_nil]
    exact .nil
  | cons first rest ih =>
    rw [run_cons, h.stray_eq]
    have hrest := ih (h.next first)
    split_ifs
    · refine List.pairwise_cons.mpr ⟨fun i hi => ?_, hrest⟩
      obtain ⟨front, _, _, -, rfl, -⟩ := (mem_strays_run (h.next first)).mp hi
      have hsize := first.utf8Size_pos
      rw [State.here_next]
      omega
    · exact hrest

/-- Each stray brace takes the least depth down by one. -/
theorem isLeast_run {s : State} (h : s.Bounded) (text : Text) :
    IsLeast (insert s.lowest {d | ∃ front, front <+: text ∧ d = s.depth + Pattern.depth front})
      (s.lowest - (run s text).strays.length) := by
  induction text generalizing s with
  | nil =>
    rw [strays_run_nil, List.length_nil, Int.natCast_zero, Int.sub_zero]
    refine ⟨Set.mem_insert _ _, ?_⟩
    rintro d (rfl | ⟨front, hfront, rfl⟩)
    · exact Int.le_refl _
    · rw [List.prefix_nil.mp hfront, depth_nil, Int.add_zero]
      exact h.le_depth
  | cons first rest ih =>
    obtain ⟨hmem, hleast⟩ := ih (h.next first)
    have hle := h.le_depth
    have hlowest := h.lowest_next first
    rw [State.depth_next] at hlowest hmem hleast
    have hstep : -1 ≤ Pattern.depth [first] := by
      by_contra hfalls
      have hclosing : first = '}' := depth_neg_iff.mp (by omega)
      rw [hclosing, depth_closing] at hfalls
      omega
    have hcount : s.lowest - (run s (first :: rest)).strays.length =
        (s.next first).lowest - (run (s.next first) rest).strays.length := by
      rw [run_cons, List.length_append, h.stray_eq, State.depth_next, hlowest]
      split_ifs with hlow
      · rw [List.length_singleton]
        omega
      · rw [List.length_nil]
        omega
    rw [hcount]
    constructor
    · rcases hmem with hlow | ⟨front, hfront, hdepth⟩
      · rw [hlow, hlowest]
        rcases Int.le_total s.lowest (s.depth + Pattern.depth [first]) with hmin | hmin
        · exact .inl (Int.min_eq_left hmin)
        · refine .inr ⟨[first], ⟨rest, rfl⟩, Int.min_eq_right hmin⟩
      · refine .inr ⟨first :: front, (List.prefix_cons_inj first).mpr hfront, ?_⟩
        rw [hdepth, depth_cons first front, Int.add_assoc]
    · rintro d (rfl | ⟨front, hfront, rfl⟩)
      · have hbound := hleast (Set.mem_insert _ _)
        omega
      · have hbound := hleast (Set.mem_insert _ _)
        rcases List.prefix_cons_iff.mp hfront with rfl | ⟨more, rfl, hmore⟩
        · rw [depth_nil]
          omega
        · have hrest := hleast (.inr ⟨more, hmore, rfl⟩)
          rw [depth_cons first more]
          omega

/-! ### Groups that stay open -/

/-- From an offset on, a text opens a group that is not closed up to its end. -/
def OpenFrom (text : Text) (offset : Nat) : Prop :=
  ∃ front back, text = front ++ back ∧ width front = offset ∧ Pattern.depth front = 0 ∧
    ∀ part, part <+: back → part ≠ [] → 0 < Pattern.depth part

theorem openFrom_opening {text : Text} (h : Pattern.depth text = 0) :
    OpenFrom (text ++ ['{']) (width text) := by
  refine ⟨text, ['{'], rfl, rfl, h, fun part hpart hne => ?_⟩
  rcases List.prefix_cons_iff.mp hpart with rfl | ⟨more, rfl, hmore⟩
  · exact absurd rfl hne
  · rw [List.prefix_nil.mp hmore, depth_opening]
    omega

theorem OpenFrom.concat {text : Text} {offset : Nat} {c : Char} (h : OpenFrom text offset)
    (hdepth : 0 < Pattern.depth (text ++ [c])) : OpenFrom (text ++ [c]) offset := by
  obtain ⟨front, back, rfl, hwidth, hzero, hparts⟩ := h
  refine ⟨front, back ++ [c], List.append_assoc _ _ _, hwidth, hzero, fun part hpart hne => ?_⟩
  rcases List.prefix_concat_iff.mp hpart with rfl | hpart
  · rw [List.append_assoc, Pattern.depth_append, hzero] at hdepth
    omega
  · exact hparts part hpart hne

/-- A scan ends inside of the group that was opened last, if more braces were opened than closed. -/
theorem unterminated_run {s : State} {front : Text} (hhere : s.here = width front)
    (hdepth : s.depth = Pattern.depth front) (hopen : 0 < s.depth → OpenFrom front s.start)
    (text : Text) :
    (Pattern.depth (front ++ text) ≤ 0 → (run s text).unterminated = none) ∧
      (0 < Pattern.depth (front ++ text) → ∃ offset, OpenFrom (front ++ text) offset ∧
        (run s text).unterminated = some ⟨offset, width (front ++ text)⟩) := by
  -- What was read so far moves from `text` to `front`.
  induction text generalizing s front with
  | nil =>
    rw [List.append_nil, ← hdepth, ← hhere, run]
    refine ⟨fun h => ?_, fun h => ⟨s.start, hopen h, ?_⟩⟩
    · rw [if_neg (by omega)]
    · rw [if_pos h]
  | cons c text ih =>
    rw [run_cons, List.append_cons]
    refine ih ?_ ?_ fun hinside => ?_
    · rw [State.here_next, hhere, width_append, width_cons, width_nil, Nat.add_zero]
    · rw [State.depth_next, hdepth, Pattern.depth_append]
    · rcases State.start_next hinside with ⟨⟨rfl, hzero⟩, hstart⟩ | ⟨hpositive, hstart⟩
      · rw [hstart, hhere]
        exact openFrom_opening (hdepth ▸ hzero)
      · rw [State.depth_next, hdepth, ← Pattern.depth_append] at hinside
        rw [hstart]
        exact (hopen hpositive).concat hinside

end Scan

/-! ### Depths at bytes -/

/-- The number of opening braces in the first bytes of a text minus the number of closing ones. -/
def depthAt (text : Text) (i : Nat) : Int :=
  (((bytes text).take i).count '{'.toUInt8 : Int) - ((bytes text).take i).count '}'.toUInt8

theorem isAscii_opening : IsAscii '{' := by decide

theorem isAscii_closing : IsAscii '}' := by decide

/-- The depth after some bytes is that of all characters that end among them. -/
theorem exists_depthAt (text : Text) (i : Nat) :
    ∃ front, front <+: text ∧ width front ≤ i ∧
      (∀ other, other <+: text → width other ≤ i → other <+: front) ∧
      depthAt text i = depth front := by
  obtain ⟨front, part, hfront, hlongest, htake, hpart⟩ := exists_take_bytes text i
  -- The bytes of a character that is cut in two are no braces.
  have hnone {a : Char} (ha : IsAscii a) : part.count a.toUInt8 = 0 := by
    refine List.count_eq_zero.mpr fun hmem => ?_
    have hle := hpart _ hmem
    rw [toNat_toUInt8 ha] at hle
    exact absurd ha (Nat.not_lt.mpr hle)
  have hwidth : width front ≤ i := by
    have hlength := List.length_take_le i (bytes text)
    rw [htake, List.length_append, length_bytes] at hlength
    omega
  refine ⟨front, hfront, hwidth, hlongest, ?_⟩
  rw [depthAt, htake, List.count_append, List.count_append, hnone isAscii_opening,
    hnone isAscii_closing, count_bytes isAscii_opening, count_bytes isAscii_closing]
  rfl

/-- After whole characters, bytes count as characters do. -/
theorem depthAt_width {text front : Text} (h : front <+: text) :
    depthAt text (width front) = depth front := by
  obtain ⟨back, rfl⟩ := h
  rw [depthAt, bytes_append, List.take_append_of_le_length (by rw [length_bytes]),
    List.take_of_length_le (by rw [length_bytes]), count_bytes isAscii_opening,
    count_bytes isAscii_closing]
  rfl

theorem depthAt_width_self (text : Text) : depthAt text (width text) = depth text :=
  depthAt_width (List.prefix_refl text)

/-- The brace at a position closes more than was opened, and the depth has never been as low. -/
structure StrayAt (pattern : Text) (i : Nat) : Prop where
  closing : (bytes pattern)[i]? = some '}'.toUInt8
  negative : depthAt pattern (i + 1) < 0
  lowest : ∀ j ≤ i, depthAt pattern (i + 1) < depthAt pattern j

/-- What is counted in bytes is counted in characters. -/
theorem strayAt_iff {pattern : Text} {i : Nat} :
    StrayAt pattern i ↔
      ∃ front c back, pattern = front ++ c :: back ∧ i = width front ∧
        depth (front ++ [c]) < 0 ∧ Sinks front c := by
  have hafter {front back : Text} :
      depthAt (front ++ '}' :: back) (width front + 1) = depth (front ++ ['}']) := by
    have hprefix : front ++ ['}'] <+: front ++ '}' :: back := ⟨back, by simp⟩
    rw [← depthAt_width hprefix, width_append]
    rfl
  constructor
  · intro h
    obtain ⟨front, back, rfl, rfl⟩ := (getElem?_bytes_eq_some_iff isAscii_closing).mp h.closing
    have hnegative := h.negative
    rw [hafter] at hnegative
    refine ⟨front, '}', back, rfl, rfl, hnegative, fun before hbefore => ?_⟩
    obtain ⟨between, rfl⟩ := hbefore
    have hlow := h.lowest (width before) (by rw [width_append]; omega)
    rwa [hafter, depthAt_width ⟨between ++ '}' :: back, by simp⟩] at hlow
  · rintro ⟨front, c, back, rfl, rfl, hnegative, hsinks⟩
    obtain rfl := hsinks.eq_closing
    refine ⟨?_, ?_, fun j hj => ?_⟩
    · exact (getElem?_bytes_eq_some_iff isAscii_closing).mpr ⟨front, back, rfl, rfl⟩
    · rwa [hafter]
    · rw [hafter]
      obtain ⟨before, hbefore, hwidth, -, hdepth⟩ := exists_depthAt (front ++ '}' :: back) j
      rw [hdepth]
      exact hsinks before (prefix_of_width_le hbefore ⟨_, rfl⟩ (by omega))

theorem setOf_depthAt (pattern : Text) :
    {d | ∃ i ≤ width pattern, d = depthAt pattern i} =
      {d | ∃ front, front <+: pattern ∧ d = depth front} := by
  ext d
  constructor
  · rintro ⟨i, -, rfl⟩
    obtain ⟨front, hfront, -, -, hdepth⟩ := exists_depthAt pattern i
    exact ⟨front, hfront, hdepth⟩
  · rintro ⟨front, ⟨back, rfl⟩, rfl⟩
    refine ⟨width front, by rw [width_append]; omega, (depthAt_width ⟨back, rfl⟩).symm⟩

/-- A group that stays open starts where the depth is zero for the last time. -/
theorem Scan.OpenFrom.isGreatest {pattern : Text} {offset : Nat} (h : OpenFrom pattern offset)
    (hdepth : 0 < depth pattern) :
    IsGreatest {i | i ≤ width pattern ∧ depthAt pattern i = 0} offset := by
  obtain ⟨front, back, rfl, rfl, hzero, hparts⟩ := h
  constructor
  · exact ⟨by rw [width_append]; omega, by rw [depthAt_width ⟨back, rfl⟩, hzero]⟩
  · rintro i ⟨-, hi⟩
    by_contra hbeyond
    cases back with
    | nil =>
      rw [List.append_nil, hzero] at hdepth
      omega
    | cons c back =>
      obtain rfl := depth_pos_iff.mp (hparts [c] ⟨back, rfl⟩ (by simp))
      obtain ⟨longest, ⟨rest, hrest⟩, -, hlongest, hsame⟩ := exists_depthAt (front ++ '{' :: back) i
      have hopened : front ++ ['{'] <+: longest := by
        refine hlongest _ ⟨back, by simp⟩ ?_
        have hsize : width ['{'] = 1 := rfl
        rw [width_append, hsize]
        omega
      obtain ⟨more, rfl⟩ := hopened
      have hpart := hparts ('{' :: more) ⟨rest, ?_⟩ (by simp)
      · rw [hi, List.append_assoc, List.singleton_append, depth_append, hzero] at hsame
        omega
      · simpa using hrest

/-! ### Texts inside of patterns -/

/-- A text is cut out of a pattern: it is the content of a group, or what follows the header there,
at any depth. All texts that are scanned while the pattern is read are of this kind, except for the
pattern itself. -/
inductive Inside (pattern : Text) : Text → Prop
  | top {content : Text} {span : Span}
      (hgroup : .group content span ∈ (Scan.ofText pattern).segments) : Inside pattern content
  | group {text content : Text} {span : Span} (hinside : Inside pattern text)
      (hgroup : .group content span ∈ (Scan.ofText text).segments) : Inside pattern content
  | afterHeader {content : Text} (hinside : Inside pattern content) :
      Inside pattern (afterHeader content)

theorem balanced_of_mem_segments {text content : Text} {span : Span}
    (h : .group content span ∈ (Scan.ofText text).segments) : Balanced content := by
  obtain ⟨chunks, tail, hfinds⟩ := exists_finds text
  have hchunk := List.mem_map_of_mem (f := Segment.chunk) h
  rw [hfinds.segments, map_chunk_place] at hchunk
  exact hfinds.settled _ hchunk

theorem Inside.balanced {pattern text : Text} (h : Inside pattern text) : Balanced text := by
  induction h with
  | top hgroup => exact balanced_of_mem_segments hgroup
  | group _ hgroup _ => exact balanced_of_mem_segments hgroup
  | afterHeader _ ih => exact ih.afterHeader

/-! ### Complaints -/

/-- What is said about a pattern starts with its stray braces from left to right, which are where
the depth falls to a new low, as many as the depth falls below zero. Then comes the brace that stays
open, if the depth is positive at the end: it stands where the depth is zero for the last time.
Nothing after that is about braces, and no text inside of the pattern is complained about. -/
theorem unmatched_exact (pattern : Text) :
    (∃ (strays : List Nat) (unclosed rest : List Diagnostic),
      (parse pattern).diagnostics =
        strays.map (fun i => ⟨.strayClosingBrace, ⟨i, i + 1⟩⟩) ++ unclosed ++ rest ∧
      strays.Pairwise (· < ·) ∧
      (∀ i, i ∈ strays ↔ StrayAt pattern i) ∧
      (∃ least, IsLeast {d | ∃ i ≤ width pattern, d = depthAt pattern i} least ∧
        (strays.length : Int) = max 0 (-least)) ∧
      (depthAt pattern (width pattern) ≤ 0 → unclosed = []) ∧
      (0 < depthAt pattern (width pattern) →
        ∃ k, IsGreatest {i | i ≤ width pattern ∧ depthAt pattern i = 0} k ∧
          unclosed = [⟨.unterminatedBrace, ⟨k, width pattern⟩⟩]) ∧
      ∀ d ∈ rest, d.problem.isUnmatched = false) ∧
    ∀ text, Inside pattern text → ∀ base, (Scan.ofText text).diagnostics base = [] := by
  refine ⟨?_, fun text hinside base => hinside.balanced.scan_diagnostics base⟩
  obtain ⟨rest, hsaid, hrest⟩ := exists_diagnostics_parse pattern
  have hbounded := Scan.State.Bounded.start
  obtain ⟨hclosed, hopen⟩ := @Scan.unterminated_run {} [] rfl rfl (by simp) pattern
  rw [List.nil_append] at hclosed hopen
  rw [depthAt_width_self]
  refine ⟨(Scan.ofText pattern).strays,
    (Scan.ofText pattern).unterminated.toList.map fun span => ⟨.unterminatedBrace, span⟩, rest,
    ?_, ?_, fun i => ?_, ?_, fun hdepth => ?_, fun hdepth => ?_, hrest⟩
  · rw [hsaid, Scan.diagnostics]
    simp [Span.shift]
  · exact Scan.pairwise_strays_run hbounded pattern
  · rw [Scan.ofText, Scan.mem_strays_run hbounded, strayAt_iff]
    simp
  · have hleast := Scan.isLeast_run hbounded pattern
    have hzero : (0 : Int) ∈ {d | ∃ front, front <+: pattern ∧ d = depth front} :=
      ⟨[], List.nil_prefix, rfl⟩
    simp only [Int.zero_add, Int.zero_sub] at hleast
    rw [Set.insert_eq_of_mem hzero, ← setOf_depthAt] at hleast
    refine ⟨_, hleast, ?_⟩
    rw [Int.neg_neg, Scan.ofText]
    omega
  · rw [Scan.ofText, hclosed hdepth]
    rfl
  · obtain ⟨k, hk, hunterminated⟩ := hopen hdepth
    refine ⟨k, hk.isGreatest hdepth, ?_⟩
    rw [Scan.ofText, hunterminated]
    rfl

/-- A stray brace behind a character of two bytes, a select, and a brace that stays open. -/
def unevenPattern : Text := "ü\x7d\x7b\x7ba,select,x\x7by\x7d\x7d\x7b\x7bb\x7d"

theorem unmatched_exact_uneven :
    StrayAt unevenPattern 2 ∧ 0 < depthAt unevenPattern (width unevenPattern) ∧
      Inside unevenPattern "y" ∧
      (∃ strays rest, (parse unevenPattern).diagnostics =
          strays ++ [⟨.unterminatedBrace, ⟨19, 23⟩⟩] ++ rest ∧
        ⟨.strayClosingBrace, ⟨2, 3⟩⟩ ∈ strays ∧ ∀ d ∈ rest, d.problem.isUnmatched = false) ∧
      (Scan.ofText "y").diagnostics 0 = [] := by
  have hstray : StrayAt unevenPattern 2 := ⟨by decide, by decide, by decide⟩
  have hopen : 0 < depthAt unevenPattern (width unevenPattern) := by decide
  have hinside : Inside unevenPattern "y" := by
    have hselect : Inside unevenPattern "a,select,x\x7by\x7d" :=
      @Inside.top _ _ ⟨4, 19⟩ (by decide)
    exact @Inside.group _ _ _ ⟨1, 4⟩ hselect.afterHeader (by decide)
  obtain ⟨⟨strays, unclosed, rest, hsaid, -, hstrays, -, -, hunclosed, hrest⟩, hnested⟩ :=
    unmatched_exact unevenPattern
  obtain ⟨k, ⟨⟨hk, hzero⟩, hgreatest⟩, rfl⟩ := hunclosed hopen
  obtain rfl : k = 19 := by
    have hle : ∀ i ≤ 23, depthAt unevenPattern i = 0 → i ≤ 19 := by decide
    have hge : 19 ≤ k := hgreatest ⟨by decide, by decide⟩
    have hupper := hle k hk hzero
    omega
  refine ⟨hstray, hopen, hinside, ⟨_, rest, hsaid, ?_, hrest⟩, hnested _ hinside 0⟩
  exact List.mem_map.mpr ⟨2, (hstrays 2).mpr hstray, rfl⟩

end Pattern

end Phrasebook
