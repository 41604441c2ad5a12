import Phrasebook.Command.Arguments
import Phrasebook.Proofs.Text.Fields
import Mathlib.Tactic.SplitIfs

/-!
# Spellings of a command line

Options can be listed in any order, and most of them can be written in several ways. An item is an
option together with its value, apart from how it is written. Reading the arguments that spell a
list of items does the same as applying the items one after another, except that the last option may
still wait to be closed. What items amount to does not depend on their order, as each option but the
languages occurs once.

## Main definitions

* `Command.Item`, `Command.Progress.apply`: an option with its value, and what it does.
* `Command.Spells`: the ways in which arguments spell items.
* `Command.Options.ListedBy`: items give exactly these options.

## Main results

* `Command.exists_takeArguments`: arguments do what the items do that they spell.
* `Command.exists_applyAll`: what a list of items amounts to.
* `Command.parse_of_spells`: all spellings of options are read as these options.
-/

namespace Phrasebook.Command

/-! ### Items -/

/-- An option with its value, apart from how it is written. -/
inductive Item where
  | on (s : Switch)
  | value (s : Setting) (v : Text)
  deriving DecidableEq

/-- The option that an item gives. -/
def Item.flag : Item → Flag
  | on s => .switch s
  | value s _ => .setting s

/-- The values that items give a setting, in order. -/
def valuesIn (items : List Item) (s : Setting) : List Text :=
  items.filterMap fun
    | .on _ => none
    | .value t v => if t = s then some v else none

@[simp] theorem valuesIn_nil (s : Setting) : valuesIn [] s = [] := rfl

@[simp] theorem valuesIn_on (t : Switch) (items : List Item) (s : Setting) :
    valuesIn (.on t :: items) s = valuesIn items s := rfl

@[simp] theorem valuesIn_value_self (s : Setting) (v : Text) (items : List Item) :
    valuesIn (.value s v :: items) s = v :: valuesIn items s :=
  List.filterMap_cons_some (if_pos rfl)

theorem valuesIn_value_of_ne {s t : Setting} (h : t ≠ s) (v : Text) (items : List Item) :
    valuesIn (.value t v :: items) s = valuesIn items s :=
  List.filterMap_cons_none (if_neg h)

theorem mem_valuesIn {items : List Item} {s : Setting} {v : Text} :
    v ∈ valuesIn items s ↔ .value s v ∈ items := by
  induction items with
  | nil => simp
  | cons item rest ih =>
    cases item with
    | on t => simp [ih]
    | value t w =>
      by_cases h : t = s
      · subst h
        simp [ih]
      · rw [valuesIn_value_of_ne h, ih, List.mem_cons, or_iff_right]
        rintro ⟨⟩
        exact h rfl

theorem count_switch (items : List Item) (s : Switch) :
    (items.map Item.flag).count (.switch s) = items.count (.on s) := by
  induction items with
  | nil => rfl
  | cons item rest ih =>
    cases item with
    | on t =>
      by_cases h : t = s
      · simp [h, Item.flag, ih]
      · simp [h, Item.flag, ih, List.count_cons_of_ne]
    | value t v => simp [Item.flag, ih, List.count_cons_of_ne]

theorem count_setting (items : List Item) (s : Setting) :
    (items.map Item.flag).count (.setting s) = (valuesIn items s).length := by
  induction items with
  | nil => rfl
  | cons item rest ih =>
    cases item with
    | on t => simp [Item.flag, ih, List.count_cons_of_ne]
    | value t v =>
      by_cases h : t = s
      · simp [h, Item.flag, ih]
      · simp [h, Item.flag, ih, List.count_cons_of_ne, valuesIn_value_of_ne h]

/-! ### Views of options -/

namespace Options

/-- Whether a switch is turned on. -/
def isOn (options : Options) : Switch → Bool
  | .noProvider => options.noProvider
  | .check => options.check
  | .strict => options.strict
  | .watch => options.watch
  | .preserveWatchOutput => options.preserveWatchOutput
  | .timings => options.timings
  | .verbose => options.verbose

/-- The values of a setting, as they are written. -/
def valuesOf (options : Options) : Setting → List Text
  | .dir => [options.dir]
  | .lang => options.langs
  | .outDir => options.outDir.toList
  | .config => options.config.toList
  | .importRoot => options.importRoot.toList
  | .output => [options.output.name]

/-- Items give exactly these options: each switch that is on occurs once and no other one, the
settings have their values, the languages in order, and a setting that has its default value may be
left out. -/
structure ListedBy (options : Options) (items : List Item) : Prop where
  switches : ∀ s, items.count (.on s) = if options.isOn s then 1 else 0
  settings : ∀ s, valuesIn items s = options.valuesOf s ∨
    valuesIn items s = [] ∧ options.valuesOf s = valuesOf {} s

end Options

theorem Format.name_injective : Function.Injective Format.name := by
  intro a b h
  revert h
  cases a <;> cases b <;> decide

theorem Format.ofName?_name (format : Format) : Format.ofName? format.name = some format := by
  cases format <;> decide

/-- The switches and the values of the settings make up the options. -/
theorem Options.ext_views {a b : Options} (hon : ∀ s, a.isOn s = b.isOn s)
    (hvalues : ∀ s, a.valuesOf s = b.valuesOf s) : a = b := by
  have hoption {x y : Option Text} (h : x.toList = y.toList) : x = y := by
    simpa using congrArg List.head? h
  have hdir : a.dir = b.dir := List.singleton_inj.mp (hvalues .dir)
  have hlangs : a.langs = b.langs := hvalues .lang
  have houtDir : a.outDir = b.outDir := hoption (hvalues .outDir)
  have hconfig : a.config = b.config := hoption (hvalues .config)
  have hroot : a.importRoot = b.importRoot := hoption (hvalues .importRoot)
  have houtput : a.output = b.output :=
    Format.name_injective (List.singleton_inj.mp (hvalues .output))
  cases a
  cases b
  simp only [Options.mk.injEq]
  exact ⟨hdir, hlangs, houtDir, hconfig, hroot, hon .noProvider, hon .check, hon .strict, houtput,
    hon .watch, hon .preserveWatchOutput, hon .timings, hon .verbose⟩

/-! ### What items do -/

namespace Progress

/-- Applies an item, when no option waits. -/
def apply (p : Progress) : Item → Except ArgumentError Progress
  | .on s => do
    let p ← p.note (.switch s)
    return { p with options := turnOn p.options s }
  | .value s v => p.set s v

/-- Applies items in order. -/
def applyAll (p : Progress) : List Item → Except ArgumentError Progress
  | [] => .ok p
  | item :: rest => do applyAll (← p.apply item) rest

theorem applyAll_append (p : Progress) (front back : List Item) :
    p.applyAll (front ++ back) = (p.applyAll front).bind fun q => q.applyAll back := by
  induction front generalizing p with
  | nil => rfl
  | cons item rest ih =>
    rw [List.cons_append, applyAll, applyAll]
    cases p.apply item with
    | error e => rfl
    | ok q => exact ih q

end Progress

/-- A value is one that a setting takes. -/
def Setting.Takes : Setting → Text → Prop
  | .dir, v => v ≠ []
  | .lang, _ => True
  | .outDir, v => v ≠ []
  | .config, v => v ≠ []
  | .importRoot, _ => True
  | .output, v => ∃ format : Format, format.name = v

/-- The values of a setting after more are given: languages are added, and other values replaced. -/
def Setting.update (s : Setting) (old new : List Text) : List Text :=
  if s = .lang then old ++ new else if new = [] then old else new

section Views

variable (options : Options)

theorem isOn_turnOn (s t : Switch) :
    (Progress.turnOn options s).isOn t = (decide (t = s) || options.isOn t) := by
  cases s <;> cases t <;> rfl

theorem valuesOf_turnOn (s : Switch) (t : Setting) :
    (Progress.turnOn options s).valuesOf t = options.valuesOf t := by
  cases s <;> cases t <;> rfl

/-- A setting that is given a value it takes has it, and nothing else changes. -/
theorem exists_assign {s : Setting} {v : Text} (h : s.Takes v) :
    ∃ result, Progress.assign options s v = .ok result ∧ (∀ t, result.isOn t = options.isOn t) ∧
      ∀ t, result.valuesOf t =
        if t = s then s.update (options.valuesOf s) [v] else options.valuesOf t := by
  have hpath (hv : v ≠ []) : ¬ v.isEmpty = true := by simpa using hv
  cases s with
  | dir =>
    exact ⟨_, if_neg (hpath h), fun t => by cases t <;> rfl, fun t => by cases t <;> rfl⟩
  | lang => exact ⟨_, rfl, fun t => by cases t <;> rfl, fun t => by cases t <;> rfl⟩
  | outDir =>
    exact ⟨_, if_neg (hpath h), fun t => by cases t <;> rfl, fun t => by cases t <;> rfl⟩
  | config =>
    exact ⟨_, if_neg (hpath h), fun t => by cases t <;> rfl, fun t => by cases t <;> rfl⟩
  | importRoot => exact ⟨_, rfl, fun t => by cases t <;> rfl, fun t => by cases t <;> rfl⟩
  | output =>
    obtain ⟨format, rfl⟩ := h
    refine ⟨{ options with output := format }, ?_, fun t => by cases t <;> rfl, fun t => ?_⟩
    · rw [Progress.assign, Format.ofName?_name]
    · cases t <;> rfl

end Views

/-! ### What a list of items amounts to -/

namespace Progress

variable {p q r : Progress}

theorem note_of_fresh {flag : Flag} (h : flag ≠ .setting .lang → flag ∉ p.seen) :
    p.note flag = .ok { p with seen := flag :: p.seen } := by
  rw [note, if_neg]
  rintro ⟨hseen, hlang⟩
  exact h hlang hseen

/-- Each option but the languages occurs once at most, now or later. -/
def Once (p : Progress) (items : List Item) : Prop :=
  ∀ flag, flag ≠ .setting .lang → (p.seen ++ items.map Item.flag).count flag ≤ 1

namespace Once

variable {item : Item} {rest : List Item} (h : p.Once (item :: rest))

include h

theorem note_eq : p.note item.flag = .ok { p with seen := item.flag :: p.seen } := by
  refine note_of_fresh fun hlang hseen => ?_
  have hcount := h item.flag hlang
  have hpos := List.count_pos_iff.mpr hseen
  rw [List.count_append, List.map_cons, List.count_cons_self] at hcount
  omega

/-- The option that comes next moves to those that have been seen. -/
theorem next (hseen : q.seen = item.flag :: p.seen) : q.Once rest := by
  intro flag hlang
  rw [hseen, List.cons_append, ← List.perm_middle.count_eq]
  exact h flag hlang

/-- A setting that is given a value has no other one later. -/
theorem valuesIn_eq_nil {s : Setting} (hflag : item.flag = .setting s) (hlang : s ≠ .lang) :
    valuesIn rest s = [] := by
  have hcount := h (.setting s) (by simpa using hlang)
  rw [List.count_append, List.map_cons, hflag, List.count_cons_self, count_setting] at hcount
  exact List.eq_nil_of_length_eq_zero (by omega)

end Once

theorem apply_on {s : Switch} {rest : List Item} (h : p.Once (.on s :: rest)) :
    p.apply (.on s) =
      .ok { p with seen := .switch s :: p.seen, options := turnOn p.options s } := by
  have hnote : p.note (.switch s) = .ok { p with seen := .switch s :: p.seen } := h.note_eq
  rw [apply, hnote]
  rfl

theorem apply_value {s : Setting} {v : Text} {rest : List Item} {options : Options}
    (h : p.Once (.value s v :: rest)) (hassign : assign p.options s v = .ok options) :
    p.apply (.value s v) = .ok { p with seen := .setting s :: p.seen, options := options } := by
  have hnote : p.note (.setting s) = .ok { p with seen := .setting s :: p.seen } := h.note_eq
  rw [apply, set, hnote]
  simp only [bind, Except.bind, hassign]
  rfl

end Progress

theorem Setting.update_nil (s : Setting) (old : List Text) : s.update old [] = old := by
  rw [update, if_pos rfl, List.append_nil, ite_self]

theorem Setting.update_nil_left (s : Setting) (new : List Text) : s.update [] new = new := by
  rw [update]
  split_ifs with hlang hnew
  · rfl
  · exact hnew.symm
  · rfl

/-- Items that occur once each and have values that are taken can be applied. They turn on their
switches, and give their values to the settings. -/
theorem exists_applyAll {items : List Item} (htakes : ∀ s v, .value s v ∈ items → s.Takes v)
    {p : Progress} (honce : p.Once items) :
    ∃ r, p.applyAll items = .ok r ∧
      (∀ s, r.options.isOn s = (decide (.on s ∈ items) || p.options.isOn s)) ∧
      ∀ s, r.options.valuesOf s = s.update (p.options.valuesOf s) (valuesIn items s) := by
  -- The induction is on the items, and the state takes in those that were applied.
  induction items generalizing p with
  | nil => exact ⟨p, rfl, by simp, fun s => (s.update_nil _).symm⟩
  | cons item rest ih =>
    have htakes' (s : Setting) (v : Text) (hmem : .value s v ∈ rest) :=
      htakes s v (List.mem_cons_of_mem item hmem)
    cases item with
    | on t =>
      obtain ⟨r, hr, hon, hvalues⟩ := ih htakes' (honce.next (q := { p with
        seen := .switch t :: p.seen, options := Progress.turnOn p.options t }) rfl)
      refine ⟨r, ?_, fun s => ?_, fun s => ?_⟩
      · rw [Progress.applyAll, Progress.apply_on honce]
        exact hr
      · rw [hon, isOn_turnOn, ← Bool.or_assoc, ← Bool.decide_or]
        simp [or_comm]
      · rw [hvalues, valuesOf_turnOn, valuesIn_on]
    | value t v =>
      obtain ⟨options, hassign, honAssign, hvaluesAssign⟩ :=
        exists_assign p.options (htakes t v List.mem_cons_self)
      obtain ⟨r, hr, hon, hvalues⟩ := ih htakes' (honce.next (q := { p with
        seen := .setting t :: p.seen, options := options }) rfl)
      refine ⟨r, ?_, fun s => ?_, fun s => ?_⟩
      · rw [Progress.applyAll, Progress.apply_value honce hassign]
        exact hr
      · rw [hon, honAssign]
        simp
      · rw [hvalues, hvaluesAssign]
        by_cases hs : s = t
        · subst hs
          rw [if_pos rfl, valuesIn_value_self]
          by_cases hlang : s = .lang
          · simp [Setting.update, hlang]
          · rw [honce.valuesIn_eq_nil rfl hlang, Setting.update_nil]
        · rw [if_neg hs, valuesIn_value_of_ne (Ne.symm hs)]

/-! ### Spellings -/

/-- A value can be an argument of its own: it is not empty, and starts with a dash only if it is
one. -/
def IsApart (v : Text) : Prop := v ≠ [] ∧ (v.head? ≠ some '-' ∨ v = ['-'])

instance : DecidablePred IsApart := fun _ => inferInstanceAs (Decidable (_ ∧ _))

/-- Letters that stand for switches, one each. -/
inductive Letters : List Switch → Text → Prop where
  | nil : Letters [] []
  | cons (s : Switch) (c : Char) {switches : List Switch} {letters : Text}
      (hname : (c, .switch s) ∈ shortNames) (h : Letters switches letters) :
      Letters (s :: switches) (c :: letters)

/-- The ways to spell items by an argument, or by two that belong together. A long name has its
value behind an equals sign or in the next argument. A short name has it right behind the letter,
behind an equals sign or in the next argument. Letters of switches stand together, also in front of
the letter of a setting. -/
inductive SpellsGroup : List Item → List Text → Prop where
  | longSwitch (s : Switch) (name : Text) (hname : (name, .switch s) ∈ longNames) :
      SpellsGroup [.on s] ['-' :: '-' :: name]
  | longJoined (s : Setting) (name v : Text) (hname : (name, .setting s) ∈ longNames) :
      SpellsGroup [.value s v] ['-' :: '-' :: (name ++ '=' :: v)]
  | longApart (s : Setting) (name v : Text) (hname : (name, .setting s) ∈ longNames)
      (hv : IsApart v) :
      SpellsGroup [.value s v] ['-' :: '-' :: name, v]
  | letters {switches : List Switch} {letters : Text} (hletters : Letters switches letters)
      (hne : letters ≠ []) :
      SpellsGroup (switches.map .on) ['-' :: letters]
  | shortJoined {switches : List Switch} {letters : Text} (hletters : Letters switches letters)
      (s : Setting) (c : Char) (v : Text) (hname : (c, .setting s) ∈ shortNames) (hv : v ≠ [])
      (hequals : v.head? ≠ some '=') :
      SpellsGroup (switches.map .on ++ [.value s v]) ['-' :: (letters ++ c :: v)]
  | shortEquals {switches : List Switch} {letters : Text} (hletters : Letters switches letters)
      (s : Setting) (c : Char) (v : Text) (hname : (c, .setting s) ∈ shortNames) (hv : v ≠ []) :
      SpellsGroup (switches.map .on ++ [.value s v]) ['-' :: (letters ++ c :: '=' :: v)]
  | shortApart {switches : List Switch} {letters : Text} (hletters : Letters switches letters)
      (s : Setting) (c : Char) (v : Text) (hname : (c, .setting s) ∈ shortNames)
      (hv : IsApart v) :
      SpellsGroup (switches.map .on ++ [.value s v]) ['-' :: (letters ++ [c]), v]

/-- Arguments spell items, group by group. -/
inductive Spells : List Item → List Text → Prop where
  | nil : Spells [] []
  | cons {group items : List Item} {first arguments : List Text} (hgroup : SpellsGroup group first)
      (h : Spells items arguments) : Spells (group ++ items) (first ++ arguments)

/-- No long name is empty or has an equals sign, and each is found as its option. -/
theorem longNames_spec : ∀ entry ∈ longNames, entry.1 ≠ [] ∧ '=' ∉ entry.1 ∧
    longNames.lookup entry.1 = some entry.2 := by
  decide

/-- No short name is a dash, and each is found as its option. -/
theorem shortNames_spec : ∀ entry ∈ shortNames, entry.1 ≠ '-' ∧
    shortNames.lookup entry.1 = some entry.2 := by
  decide

namespace Progress

variable {p q r : Progress}

/-- A state that goes on with options, and what becomes of it when the option that waits is
closed. -/
structure Settles (p q : Progress) : Prop where
  going : p.ended = false
  close_eq : p.close = .ok q

theorem of_note_eq_ok {flag : Flag} (h : p.note flag = .ok q) :
    q = { p with seen := flag :: p.seen } := by
  rw [note] at h
  split_ifs at h
  exact (Except.ok.inj h).symm

/-- A setting is given its value, and the rest of the state stays. -/
theorem of_set_eq_ok {s : Setting} {v : Text} (h : p.set s v = .ok q) :
    q.pending = p.pending ∧ q.ended = p.ended := by
  rw [set] at h
  cases hnote : p.note (.setting s) with
  | error e => simp [hnote, bind, Except.bind] at h
  | ok next =>
    obtain rfl := of_note_eq_ok hnote
    cases hassign : assign p.options s v with
    | error e => simp [hnote, hassign, bind, Except.bind] at h
    | ok options =>
      simp only [hnote, hassign, bind, Except.bind, pure, Except.pure, Except.ok.injEq] at h
      subst h
      exact ⟨rfl, rfl⟩

theorem of_apply_eq_ok {item : Item} (h : p.apply item = .ok q) :
    q.pending = p.pending ∧ q.ended = p.ended := by
  cases item with
  | value s v => exact of_set_eq_ok h
  | on s =>
    rw [apply] at h
    cases hnote : p.note (.switch s) with
    | error e => simp [hnote, bind, Except.bind] at h
    | ok next =>
      obtain rfl := of_note_eq_ok hnote
      simp only [hnote, bind, Except.bind, pure, Except.pure, Except.ok.injEq] at h
      subst h
      exact ⟨rfl, rfl⟩

theorem settles_self (hpending : p.pending = none) (hended : p.ended = false) : p.Settles p :=
  ⟨hended, by rw [close, hpending]⟩

namespace Settles

variable (h : p.Settles q)

include h

/-- Nothing waits in a state that was closed. -/
theorem closed : q.pending = none ∧ q.ended = false := by
  obtain ⟨hgoing, hclose⟩ := h
  rw [close] at hclose
  split at hclose
  · next hpending =>
    cases hclose
    exact ⟨hpending, hgoing⟩
  · cases hclose
  · obtain ⟨hpending, hended⟩ := of_set_eq_ok hclose
    exact ⟨hpending, hended.trans hgoing⟩

theorem apply_settles {item : Item} (happly : q.apply item = .ok r) : r.Settles r := by
  obtain ⟨hpending, hended⟩ := h.closed
  obtain ⟨hpending', hended'⟩ := of_apply_eq_ok happly
  exact settles_self (hpending'.trans hpending) (hended'.trans hended)

theorem take_switch (s : Switch) (long : Bool) : p.take (.switch s) long = q.apply (.on s) := by
  rw [take, h.close_eq]
  rfl

theorem take_setting (s : Setting) (long : Bool) :
    p.take (.setting s) long = .ok { q with pending := some ⟨s, none⟩ } := by
  rw [take, h.close_eq]
  rfl

/-- A value that waits is set when it is closed. -/
theorem pending_settles {s : Setting} {v : Text} (happly : q.apply (.value s v) = .ok r) :
    Settles { q with pending := some ⟨s, some v⟩ } r := by
  obtain ⟨hpending, hended⟩ := h.closed
  refine ⟨hended, ?_⟩
  have hq : { q with pending := none } = q := by rw [← hpending]
  rw [close]
  dsimp only
  rw [hq]
  exact happly

end Settles

/-! ### Groups of arguments -/

theorem takeArguments_append (p : Progress) (front back : List Text) :
    p.takeArguments (front ++ back) =
      (p.takeArguments front).bind fun q => q.takeArguments back := by
  induction front generalizing p with
  | nil => rfl
  | cons argument rest ih =>
    rw [List.cons_append, takeArguments, takeArguments]
    cases p.takeArgument argument with
    | error e => rfl
    | ok q => exact ih q

section Arguments

variable (hgoing : p.ended = false)

include hgoing

theorem takeArgument_long {name : Text} (hname : name ≠ []) :
    p.takeArgument ('-' :: '-' :: name) = p.takeLong name := by
  obtain ⟨c, rest, rfl⟩ := List.exists_cons_of_ne_nil hname
  simp [takeArgument, hgoing]

theorem takeArgument_short {text : Text} (hne : text ≠ []) (hdash : text.head? ≠ some '-') :
    p.takeArgument ('-' :: text) = p.takeShort text := by
  obtain ⟨c, rest, rfl⟩ := List.exists_cons_of_ne_nil hne
  have hc : c ≠ '-' := by simpa using hdash
  simp [takeArgument, hgoing, hc]

theorem takeArgument_apart {v : Text} (hv : IsApart v) : p.takeArgument v = p.takeValue v := by
  obtain ⟨hne, hdash | rfl⟩ := hv
  · obtain ⟨c, rest, rfl⟩ := List.exists_cons_of_ne_nil hne
    have hc : c ≠ '-' := by simpa using hdash
    simp [takeArgument, hgoing, hc]
  · simp [takeArgument, hgoing]

end Arguments

namespace Settles

variable (h : p.Settles q)

include h

/-- An option that waits takes the next argument. -/
theorem takeArgument_pending (s : Setting) {v : Text} (hv : IsApart v) :
    takeArgument { q with pending := some ⟨s, none⟩ } v =
      .ok { q with pending := some ⟨s, some v⟩ } := by
  have hgoing : Progress.ended { q with pending := some ⟨s, none⟩ } = false := h.closed.2
  rw [takeArgument_apart hgoing hv]
  rfl

section Long

variable {name : Text}

theorem takeLong_switch {s : Switch} (hname : (name, .switch s) ∈ longNames) :
    p.takeLong name = q.apply (.on s) := by
  obtain ⟨-, hequals, hlookup⟩ := longNames_spec _ hname
  simp only [takeLong, Text.splitFirst_eq_none hequals, hlookup]
  exact h.take_switch s true

theorem takeLong_setting {s : Setting} (hname : (name, .setting s) ∈ longNames) :
    p.takeLong name = .ok { q with pending := some ⟨s, none⟩ } := by
  obtain ⟨-, hequals, hlookup⟩ := longNames_spec _ hname
  simp only [takeLong, Text.splitFirst_eq_none hequals, hlookup]
  exact h.take_setting s true

theorem takeLong_joined {s : Setting} (hname : (name, .setting s) ∈ longNames) (v : Text) :
    p.takeLong (name ++ '=' :: v) = q.apply (.value s v) := by
  obtain ⟨-, hequals, hlookup⟩ := longNames_spec _ hname
  simp only [takeLong, Text.splitFirst_append_cons hequals, hlookup, h.close_eq]
  rfl

end Long

section Short

variable {c : Char} {s : Setting} (hname : (c, .setting s) ∈ shortNames)

include hname

theorem takeShort_setting : p.takeShort [c] = .ok { q with pending := some ⟨s, none⟩ } := by
  rw [takeShort, (shortNames_spec _ hname).2]
  exact h.take_setting s false

theorem takeShort_equals (v : Text) : p.takeShort (c :: '=' :: v) = q.apply (.value s v) := by
  rw [takeShort, (shortNames_spec _ hname).2]
  simp only [h.close_eq]
  rfl

theorem takeShort_joined {v : Text} (hv : v ≠ []) (hequals : v.head? ≠ some '=') :
    p.takeShort (c :: v) = q.apply (.value s v) := by
  obtain ⟨d, rest, rfl⟩ := List.exists_cons_of_ne_nil hv
  have hd : d ≠ '=' := by simpa using hequals
  rw [takeShort, (shortNames_spec _ hname).2]
  simp only [h.close_eq, if_neg hd]
  rfl

end Short

end Settles

/-- Letters of switches are taken one by one, and what follows them is taken after that. -/
theorem exists_takeShort {switches : List Switch} {letters : Text}
    (hletters : Letters switches letters) (rest : Text) (h : p.Settles q)
    (happly : q.applyAll (switches.map .on) = .ok r) :
    ∃ next : Progress, next.Settles r ∧ p.takeShort (letters ++ rest) = next.takeShort rest := by
  -- The first letter closes what waits from before, and the other letters find nothing to close.
  induction hletters generalizing p q with
  | nil =>
    cases happly
    exact ⟨p, h, rfl⟩
  | cons s c hname _ ih =>
    rw [List.map_cons, applyAll] at happly
    cases hon : q.apply (.on s) with
    | error e => simp [hon, bind, Except.bind] at happly
    | ok first =>
      rw [hon] at happly
      obtain ⟨next, hnext, htake⟩ := ih (h.apply_settles hon) happly
      refine ⟨next, hnext, ?_⟩
      rw [List.cons_append, takeShort, (shortNames_spec _ hname).2]
      simp only [h.take_switch, hon]
      exact htake

theorem applyAll_singleton (p : Progress) (item : Item) : p.applyAll [item] = p.apply item := by
  rw [applyAll]
  cases p.apply item <;> rfl

theorem takeArguments_singleton (p : Progress) (argument : Text) :
    p.takeArguments [argument] = p.takeArgument argument := by
  rw [takeArguments]
  cases p.takeArgument argument <;> rfl

theorem takeArguments_pair {first second : Text} (h : p.takeArgument first = .ok q) :
    p.takeArguments [first, second] = q.takeArgument second := by
  rw [takeArguments, h]
  exact takeArguments_singleton q second

theorem exists_applyAll_append_value {switches : List Switch} {s : Setting} {v : Text}
    (h : q.applyAll (switches.map .on ++ [.value s v]) = .ok r) :
    ∃ middle : Progress, q.applyAll (switches.map .on) = .ok middle ∧
      middle.apply (.value s v) = .ok r := by
  rw [applyAll_append] at h
  cases hmiddle : q.applyAll (switches.map .on) with
  | error e => simp [hmiddle, Except.bind] at h
  | ok middle =>
    rw [hmiddle] at h
    exact ⟨middle, rfl, (applyAll_singleton middle _).symm.trans h⟩

end Progress

/-- Letters of options are no second dash. -/
theorem Letters.head?_append_ne {switches : List Switch} {letters rest : Text}
    (hletters : Letters switches letters) (hrest : rest.head? ≠ some '-') :
    (letters ++ rest).head? ≠ some '-' := by
  cases hletters with
  | nil => exact hrest
  | cons s c hname _ => simpa using (shortNames_spec _ hname).1

theorem head?_ne_of_mem_shortNames {c : Char} {flag : Flag} (hname : (c, flag) ∈ shortNames)
    (rest : Text) : (c :: rest).head? ≠ some '-' := by
  simpa using (shortNames_spec _ hname).1

namespace Progress

variable {p q r : Progress}

/-- A group of arguments does what the items do that it spells. -/
theorem exists_takeGroup {group : List Item} {first : List Text} (hgroup : SpellsGroup group first)
    (h : p.Settles q) (happly : q.applyAll group = .ok r) :
    ∃ next : Progress, p.takeArguments first = .ok next ∧ next.Settles r := by
  cases hgroup with
  | longSwitch s name hname =>
    rw [applyAll_singleton] at happly
    refine ⟨r, ?_, h.apply_settles happly⟩
    rw [takeArguments_singleton, takeArgument_long h.going (longNames_spec _ hname).1,
      h.takeLong_switch hname, happly]
  | longJoined s name v hname =>
    rw [applyAll_singleton] at happly
    refine ⟨r, ?_, h.apply_settles happly⟩
    rw [takeArguments_singleton, takeArgument_long h.going (by simp), h.takeLong_joined hname,
      happly]
  | longApart s name v hname hv =>
    rw [applyAll_singleton] at happly
    refine ⟨_, ?_, h.pending_settles happly⟩
    have hfirst := takeArgument_long h.going (longNames_spec _ hname).1
    rw [h.takeLong_setting hname] at hfirst
    rw [takeArguments_pair hfirst, h.takeArgument_pending s hv]
  | @letters switches letters hletters hne =>
    obtain ⟨next, hnext, htake⟩ := exists_takeShort hletters [] h happly
    have hdash : (letters ++ []).head? ≠ some '-' := hletters.head?_append_ne (by simp)
    rw [List.append_nil] at htake hdash
    refine ⟨next, ?_, hnext⟩
    rw [takeArguments_singleton, takeArgument_short h.going hne hdash, htake]
    rfl
  | shortJoined hletters s c v hname hv hequals =>
    obtain ⟨middle, hmiddle, hvalue⟩ := exists_applyAll_append_value happly
    obtain ⟨next, hnext, htake⟩ := exists_takeShort hletters (c :: v) h hmiddle
    refine ⟨r, ?_, hnext.apply_settles hvalue⟩
    rw [takeArguments_singleton, takeArgument_short h.going (by simp)
      (hletters.head?_append_ne (head?_ne_of_mem_shortNames hname _)), htake,
      hnext.takeShort_joined hname hv hequals, hvalue]
  | shortEquals hletters s c v hname hv =>
    obtain ⟨middle, hmiddle, hvalue⟩ := exists_applyAll_append_value happly
    obtain ⟨next, hnext, htake⟩ := exists_takeShort hletters (c :: '=' :: v) h hmiddle
    refine ⟨r, ?_, hnext.apply_settles hvalue⟩
    rw [takeArguments_singleton, takeArgument_short h.going (by simp)
      (hletters.head?_append_ne (head?_ne_of_mem_shortNames hname _)), htake,
      hnext.takeShort_equals hname, hvalue]
  | shortApart hletters s c v hname hv =>
    obtain ⟨middle, hmiddle, hvalue⟩ := exists_applyAll_append_value happly
    obtain ⟨next, hnext, htake⟩ := exists_takeShort hletters [c] h hmiddle
    refine ⟨_, ?_, hnext.pending_settles hvalue⟩
    have hfirst := takeArgument_short h.going (by simp)
      (hletters.head?_append_ne (head?_ne_of_mem_shortNames hname []))
    rw [htake, hnext.takeShort_setting hname] at hfirst
    rw [takeArguments_pair hfirst, hnext.takeArgument_pending s hv]

/-- Arguments do what the items do that they spell, except that the last option may still wait. -/
theorem exists_takeArguments {items : List Item} {arguments : List Text}
    (hspells : Spells items arguments) (h : p.Settles q) (happly : q.applyAll items = .ok r) :
    ∃ last : Progress, p.takeArguments arguments = .ok last ∧ last.Settles r := by
  induction hspells generalizing p q with
  | nil =>
    cases happly
    exact ⟨p, rfl, h⟩
  | @cons group items first arguments hgroup _ ih =>
    -- What waits after a group is closed by the next one, so the items stay ahead by an option.
    rw [applyAll_append] at happly
    cases hmiddle : q.applyAll group with
    | error e => simp [hmiddle, Except.bind] at happly
    | ok middle =>
      rw [hmiddle] at happly
      obtain ⟨next, htake, hnext⟩ := exists_takeGroup hgroup h hmiddle
      obtain ⟨last, hlast, hsettles⟩ := ih hnext happly
      refine ⟨last, ?_, hsettles⟩
      rw [takeArguments_append, htake]
      exact hlast

end Progress

/-! ### Options that are listed -/

namespace Options.ListedBy

variable {options : Options} {items : List Item} (h : options.ListedBy items)

include h

theorem mem_on_iff (s : Switch) : .on s ∈ items ↔ options.isOn s = true := by
  rw [← List.count_pos_iff, h.switches s]
  split_ifs with hon <;> simp [hon]

/-- A value that is listed is a value of the options. -/
theorem mem_valuesOf {s : Setting} {v : Text} (hmem : .value s v ∈ items) :
    v ∈ options.valuesOf s := by
  have hv := mem_valuesIn.mpr hmem
  rcases h.settings s with hvalues | ⟨hnil, -⟩
  · rwa [hvalues] at hv
  · rw [hnil] at hv
    exact absurd hv List.not_mem_nil

theorem once : ({} : Progress).Once items := by
  have hnone {flag : Flag} (hflag : ∀ item : Item, item.flag ≠ flag) :
      (items.map Item.flag).count flag = 0 := by
    rw [List.count_eq_zero, List.mem_map]
    rintro ⟨item, -, hitem⟩
    exact hflag item hitem
  intro flag hlang
  rw [List.nil_append]
  cases flag with
  | switch s =>
    rw [count_switch, h.switches]
    split_ifs <;> simp
  | setting s =>
    rw [count_setting]
    rcases h.settings s with hvalues | ⟨hnil, -⟩
    · rw [hvalues]
      cases s with
      | lang => exact absurd rfl hlang
      | dir => exact Nat.le_refl _
      | output => exact Nat.le_refl _
      | outDir => exact Option.length_toList_le
      | config => exact Option.length_toList_le
      | importRoot => exact Option.length_toList_le
    · simp [hnil]
  | help =>
    rw [hnone fun item => by cases item <;> rintro ⟨⟩]
    exact Nat.zero_le 1
  | version =>
    rw [hnone fun item => by cases item <;> rintro ⟨⟩]
    exact Nat.zero_le 1

/-- The defaults, with the values of the items in their places, are the values of the options. -/
theorem update_valuesIn (s : Setting) :
    s.update (valuesOf {} s) (valuesIn items s) = options.valuesOf s := by
  rcases h.settings s with hvalues | ⟨hnil, hdefault⟩
  · rw [hvalues]
    cases s with
    | dir => rfl
    | output => rfl
    | lang | outDir | config | importRoot => exact Setting.update_nil_left _ _
  · rw [hnil, Setting.update_nil, hdefault]

end Options.ListedBy

/-- The values of options with non-empty paths are values that the settings take. -/
theorem Options.takes_of_mem_valuesOf {options : Options} (hdir : options.dir ≠ [])
    (houtDir : options.outDir ≠ some []) (hconfig : options.config ≠ some []) {s : Setting}
    {v : Text} (hv : v ∈ options.valuesOf s) : s.Takes v := by
  cases s with
  | lang => trivial
  | importRoot => trivial
  | dir =>
    rw [valuesOf, List.mem_singleton] at hv
    rw [hv]
    exact hdir
  | outDir =>
    rintro rfl
    exact houtDir (Option.mem_toList.mp hv)
  | config =>
    rintro rfl
    exact hconfig (Option.mem_toList.mp hv)
  | output => exact ⟨options.output, (List.mem_singleton.mp hv).symm⟩

/-- However options are spelled and listed, they are read as these options. The paths among them are
not empty. -/
theorem parse_of_spells {options : Options} {items : List Item} {arguments : List Text}
    (hdir : options.dir ≠ []) (houtDir : options.outDir ≠ some [])
    (hconfig : options.config ≠ some []) (hlisted : options.ListedBy items)
    (hspells : Spells items arguments) : Options.parse arguments = .ok options := by
  have htakes (s : Setting) (v : Text) (hmem : .value s v ∈ items) : s.Takes v :=
    Options.takes_of_mem_valuesOf hdir houtDir hconfig (hlisted.mem_valuesOf hmem)
  obtain ⟨r, happly, hon, hvalues⟩ := exists_applyAll htakes hlisted.once
  have hoptions : r.options = options := by
    refine Options.ext_views (fun s => ?_) fun s => ?_
    · have hoff : Options.isOn {} s = false := by cases s <;> rfl
      rw [hon, hoff, Bool.or_false]
      simp [hlisted.mem_on_iff]
    · rw [hvalues, hlisted.update_valuesIn]
  obtain ⟨last, htake, hlast⟩ :=
    Progress.exists_takeArguments hspells (Progress.settles_self rfl rfl) happly
  rw [Options.parse, htake]
  simp only [bind, Except.bind, hlast.close_eq, pure, Except.pure, hoptions]

/-- Options whose values look like other options and like marks. -/
def oddOptions : Options where
  dir := "--check"
  langs := ["-", "en", []]
  outDir := some "=out"
  importRoot := some []
  output := .json
  strict := true
  watch := true
  verbose := true

/-- The options in another order, with the settings among the switches. -/
def oddItems : List Item :=
  [.value .lang "-", .value .output "json", .on .verbose, .on .watch, .value .lang "en",
    .value .importRoot [], .on .strict, .value .outDir "=out", .value .dir "--check",
    .value .lang []]

def oddArguments : List Text :=
  ["-l", "-", "--output", "json", "-vwlen", "--import-prefix=", "--strict", "-o==out", "-d--check",
    "--lang="]

theorem parse_of_spells_odd :
    oddOptions.ListedBy oddItems ∧ Spells oddItems oddArguments ∧
      Options.parse oddArguments = .ok oddOptions := by
  have hlisted : oddOptions.ListedBy oddItems :=
    ⟨fun s => by cases s <;> decide, fun s => by cases s <;> decide⟩
  have hcluster : Letters [.verbose, .watch] ['v', 'w'] :=
    .cons .verbose 'v' (by decide) (.cons .watch 'w' (by decide) .nil)
  have hspells : Spells oddItems oddArguments :=
    .cons (.shortApart .nil .lang 'l' "-" (by decide) (by decide)) <|
    .cons (.longApart .output "output" "json" (by decide) (by decide)) <|
    .cons (.shortJoined hcluster .lang 'l' "en" (by decide) (by decide) (by decide)) <|
    .cons (.longJoined .importRoot "import-prefix" [] (by decide)) <|
    .cons (.longSwitch .strict "strict" (by decide)) <|
    .cons (.shortEquals .nil .outDir 'o' "=out" (by decide) (by decide)) <|
    .cons (.shortJoined .nil .dir 'd' "--check" (by decide) (by decide) (by decide)) <|
    .cons (.longJoined .lang "lang" [] (by decide)) .nil
  exact ⟨hlisted, hspells, parse_of_spells (by decide) (by decide) (by decide) hlisted hspells⟩

end Phrasebook.Command
