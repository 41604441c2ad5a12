import Phrasebook.Proofs.Catalog.ModuleReading
import Phrasebook.Proofs.Catalog.Store
import Phrasebook.Proofs.Lists
import Mathlib.Data.List.Forall2

/-!
# Modules mean what their stores say

The function of a generated module is called with a key and a record of strings. It returns the
rendering of the pattern that was put into the store last under that key, or says that there is
none. The type of its arguments has one alternative for each key, and an alternative asks for a
record if and only if the arm of its key binds one. A variable that the record has no string for is
empty, unless the record inherits something under its name.
-/

namespace Phrasebook.Catalog

open Pattern Script Template

/-! ### Running an arm -/

section Arms

variable {scope : Scope} {key : Text} {values : Values} {prototype : Prototype}

theorem eval_key (hp : scope ['p'] = some (.tuple [.string key, .record values prototype])) :
    (argument 0).eval scope = some (.string key) := by
  simp [argument, Expr.eval, hp, Value.isUndefined, Value.get?]

theorem eval_record (hp : scope ['p'] = some (.tuple [.string key, .record values prototype])) :
    (argument 1).eval scope = some (.record values prototype) := by
  simp [argument, Expr.eval, hp, Value.isUndefined, Value.get?]

/-- A template without variables has its value in any scope. -/
theorem eval_template {nodes : List Node}
    (h : occurrences nodes = [] ∨ scope ['v'] = some (.record values prototype)) :
    (Expr.template (bodyParts nodes)).eval scope =
      some (.string (renderWith prototype.text values nodes)) := by
  rcases h with h | hv
  · have hscope : Scope.single ['v'] (.record values prototype) ['v'] =
        some (.record values prototype) := if_pos rfl
    rw [@Expr.eval_congr scope (.single ['v'] (.record values prototype)), Expr.eval,
      eval_bodyParts hscope]
    · rfl
    · intro x hx
      exact absurd h (of_reads_bodyParts nodes hx).2
  · rw [Expr.eval, eval_bodyParts hv]
    rfl

/-- An arm returns the rendering of its pattern. -/
theorem execAll_armStatements
    (hp : scope ['p'] = some (.tuple [.string key, .record values prototype]))
    (nodes : List Node) :
    execAll scope (armStatements (occurrences nodes).eraseDups (.template (bodyParts nodes))) =
      some (.returned (.string (renderWith prototype.text values nodes))) := by
  rw [armStatements]
  split_ifs with hnames
  · have hnone : occurrences nodes = [] := by
      rwa [Lists.isEmpty_eraseDups, List.isEmpty_iff] at hnames
    have hvalue : (Expr.template (bodyParts nodes)).eval scope =
        some (.string (renderWith prototype.text values nodes)) := eval_template (.inl hnone)
    simp only [execAll, Statement.exec, hvalue, Option.map_some, Option.bind_some, Outcome.next]
  · have hhidden : (scope.hide [['v']]) ['p'] =
        some (.tuple [.string key, .record values prototype]) := by simp [Scope.hide, hp]
    have hfree : (scope.hide [['v']]) ['v'] = none := by simp [Scope.hide]
    have hbound : ((scope.hide [['v']]).bind ['v'] (.record values prototype)) ['v'] =
        some (.record values prototype) := if_pos rfl
    have hnames : boundNames
        [.constant ['v'] (argument 1), .result (.template (bodyParts nodes))] = [['v']] := rfl
    simp only [execAll, Statement.exec, hnames, hfree, eval_record hhidden,
      eval_template (.inr hbound), Option.isSome_none, Bool.false_eq_true, if_false,
      Option.map_some, Option.bind_some, Outcome.next, Outcome.leave]

/-- The default clause says that the key is missing. -/
theorem execAll_default
    (hp : scope ['p'] = some (.tuple [.string key, .record values prototype])) :
    execAll scope defaultClause.body = some (.returned (.string ("MISSING " ++ key))) := by
  have hmissing : missing.eval scope = some (.string ("MISSING " ++ key)) := by
    rw [missing, Expr.eval, Parts.eval_hole (eval_key hp) rfl]
    simp [Parts.eval]
  simp only [defaultClause, execAll, Statement.exec, hmissing, Option.map_some, Option.bind_some,
    Outcome.next]

/-- A switch runs the clause of the first entry with the key, or else the default clause. -/
theorem execFrom_clauses {entries : List Entry} {result : Entry → Text} {default : Text}
    (harms : ∀ entry ∈ entries,
      execAll scope entry.clause.body = some (.returned (.string (result entry))))
    (hdefault : execAll scope defaultClause.body = some (.returned (.string default))) :
    ∃ index, labelIndex? scope (.string key) (entries.map Entry.clause ++ [defaultClause]) =
        some index ∧
      execFrom scope (index.getD (defaultIndex (entries.map Entry.clause ++ [defaultClause])))
          (entries.map Entry.clause ++ [defaultClause]) =
        some (.returned (.string
          (((entries.find? fun entry => entry.key == key).map result).getD default))) := by
  induction entries with
  | nil =>
    refine ⟨none, rfl, ?_⟩
    change (execAll scope defaultClause.body).bind _ = _
    rw [hdefault]
    rfl
  | cons entry entries ih =>
    obtain ⟨index, hindex, hexec⟩ := ih fun other hmem => harms other (List.mem_cons_of_mem _ hmem)
    -- Either this clause is entered, and returns, or the search goes on one clause further.
    by_cases hkey : entry.key = key
    · refine ⟨some 0, ?_, ?_⟩
      · simp [labelIndex?, Entry.clause, Expr.eval, Value.strictEqual?, hkey]
      · rw [List.find?_cons_of_pos (by simpa using hkey), List.map_cons, List.cons_append]
        change (execAll scope entry.clause.body).bind _ = _
        rw [harms entry List.mem_cons_self]
        rfl
    · refine ⟨index.map (· + 1), ?_, ?_⟩
      · have hne : key ≠ entry.key := Ne.symm hkey
        rw [List.map_cons, List.cons_append, labelIndex?, hindex]
        simp [Entry.clause, Expr.eval, Value.strictEqual?, hne]
      · have hnext : (index.map (· + 1)).getD
            (defaultIndex ((entry :: entries).map Entry.clause ++ [defaultClause])) =
              index.getD (defaultIndex (entries.map Entry.clause ++ [defaultClause])) + 1 := by
          cases index with
          | none => simp [defaultIndex, List.findIdx_cons, Entry.clause]
          | some index => rfl
        rw [hnext, List.find?_cons_of_neg (by simpa using hkey), ← hexec, List.map_cons,
          List.cons_append, execFrom]

end Arms

/-! ### Arms and alternatives -/

/-- An arm fits the alternative of its key: it binds the record if and only if the alternative has
one, and whenever it reads it. -/
structure Fits (key : Text) (shape : Shape) (arm : Clause) : Prop where
  label : arm.label = some (.string key)
  binds_iff : BindsAny ['v'] (argument 1) arm.body ↔ ['v'] ∈ shape.labels
  binds_of_reads : readsAny ['v'] arm.body = true → BindsAny ['v'] (argument 1) arm.body

theorem Entry.Readable.names_eq {entry : Entry} (h : entry.Readable) :
    entry.compiled.names = (occurrences (parse entry.pattern).nodes).eraseDups := by
  rw [h.compiled, ← Template.names_eq]
  rfl

/-- A template reads the record only if it has variables. -/
theorem Entry.Readable.names_of_reads {entry : Entry} (h : entry.Readable)
    (hreads : entry.value.reads ['v'] = true) : entry.compiled.names.isEmpty = false := by
  have hsome := (of_reads_bodyParts (parse entry.pattern).nodes hreads).2
  rwa [h.names_eq, Lists.isEmpty_eraseDups, List.isEmpty_eq_false_iff]

theorem Entry.Readable.fits {entry : Entry} (h : entry.Readable) :
    Fits entry.key (alternative entry.key entry.compiled.names) entry.clause := by
  have hreads := h.names_of_reads
  cases hnames : entry.compiled.names.isEmpty with
  | true =>
    rw [hnames] at hreads
    constructor
    · rfl
    · simp [Entry.clause, armStatements, alternative, hnames, BindsAny, Statement.Binds,
        Shape.labels]
    · simpa [Entry.clause, armStatements, hnames, readsAny, Statement.reads, BindsAny,
        Statement.Binds] using hreads
  | false =>
    constructor
    · rfl
    · simp [Entry.clause, armStatements, alternative, hnames, BindsAny, Statement.Binds,
        Shape.labels]
    · simp [Entry.clause, armStatements, hnames, BindsAny, Statement.Binds]

/-! ### Calls -/

theorem hide_nil (scope : Scope) : scope.hide [] = scope := by
  funext x
  simp [Scope.hide]

theorem boundNames_armStatements (names : List Text) (value : Expr) :
    boundNames (armStatements names value) = [] := by
  rw [armStatements]
  split_ifs <;> rfl

/-- What a call of the function returns. -/
theorem call?_moduleOf {entries : List Entry} (h : ∀ entry ∈ entries, entry.Readable) (key : Text)
    (values : Values) (prototype : Prototype) :
    (moduleOf entries).call? "translate" [.string key, .record values prototype] =
      some (.string (((entries.find? fun entry => entry.key == key).map fun entry =>
        renderWith prototype.text values (parse entry.pattern).nodes).getD
          ("MISSING " ++ key))) := by
  generalize hscope : Scope.single ['p'] (.tuple [.string key, .record values prototype]) = scope
  have hp : scope ['p'] = some (.tuple [.string key, .record values prototype]) := by
    rw [← hscope]
    exact if_pos rfl
  have harms : ∀ entry ∈ entries, execAll scope entry.clause.body =
      some (.returned (.string
        (renderWith prototype.text values (parse entry.pattern).nodes))) := by
    intro entry hentry
    rw [Entry.clause, (h entry hentry).names_eq]
    exact execAll_armStatements hp _
  obtain ⟨index, hindex, hexec⟩ :=
    @execFrom_clauses scope key entries _ _ harms (execAll_default hp)
  -- Clauses bind names only inside of blocks, so the switch hides nothing.
  have hbound : ((entries.map Entry.clause ++ [defaultClause]).flatMap fun clause =>
      boundNames clause.body) = [] := by
    simp only [List.flatMap_append, List.flatMap_map, Entry.clause, boundNames_armStatements]
    simp [defaultClause, boundNames]
  have hswitch : execAll scope (functionBody entries) =
      some (.returned (.string (((entries.find? fun entry => entry.key == key).map fun entry =>
        renderWith prototype.text values (parse entry.pattern).nodes).getD
          ("MISSING " ++ key)))) := by
    simp only [functionBody, execAll, Statement.exec, hbound, hide_nil, eval_key hp,
      Option.bind_some, hindex, hexec, Option.map_some, Outcome.leave, Outcome.next]
  have hfunction : (moduleOf entries).function? "translate" =
      some ⟨"p", .name "Props", .name "string", functionBody entries⟩ := rfl
  have hparameter : Scope.single "p" (.tuple [.string key, .record values prototype]) = scope :=
    hscope
  rw [Module.call?, hfunction, Option.bind_some, Function.call?]
  simp only [hparameter, hswitch, Option.map_some]

/-! ### Stores of patterns -/

/-- The store of patterns that come in under keys, one after the other. -/
def storeOf (pairs : List (Text × Text)) : Store :=
  .ofEntries (pairs.map fun pair => .compile pair.1 pair.2)

/-- The pattern that came in last under a key. -/
def lastPattern? (pairs : List (Text × Text)) (key : Text) : Option Text :=
  (pairs.reverse.find? fun pair => pair.1 == key).map Prod.snd

/-- What a call with a key and values should return. -/
def answer (pairs : List (Text × Text)) (key : Text) (values : Values) : Text :=
  match lastPattern? pairs key with
  | some pattern => render values (parse pattern).nodes
  | none => "MISSING " ++ key

/-- What a call returns, with a text for each variable that has no value. -/
def answerWith (absent : Text → Text) (pairs : List (Text × Text)) (key : Text)
    (values : Values) : Text :=
  match lastPattern? pairs key with
  | some pattern => renderWith absent values (parse pattern).nodes
  | none => "MISSING " ++ key

theorem answerWith_text_eq_iff {prototype : Prototype} {pairs : List (Text × Text)} {key : Text}
    {values : Values} :
    answerWith prototype.text pairs key values = answer pairs key values ↔
      ∀ pattern, lastPattern? pairs key = some pattern →
        OwnOnly prototype values (parse pattern).nodes := by
  rw [answerWith, answer]
  cases lastPattern? pairs key with
  | none => simp
  | some pattern => simp only [renderWith_text_eq_iff, Option.some.injEq, forall_eq']

/-- The variables of the pattern that came in last under a key, each once, in the order of their
first occurrences. -/
def variablesOf (pairs : List (Text × Text)) (key : Text) : List Text :=
  match lastPattern? pairs key with
  | some pattern => (occurrences (parse pattern).nodes).eraseDups
  | none => []

theorem find?_storeOf (pairs : List (Text × Text)) (key : Text) :
    (storeOf pairs).find? key = (lastPattern? pairs key).map (Entry.compile key) := by
  rw [storeOf, Store.find?_ofEntries, ← List.map_reverse, List.find?_map, lastPattern?]
  have hkey : ((fun entry : Entry => entry.key == key) ∘ fun pair : Text × Text =>
      Entry.compile pair.1 pair.2) = fun pair => pair.1 == key := rfl
  rw [hkey]
  cases hfind : pairs.reverse.find? fun pair => pair.1 == key with
  | none => rfl
  | some pair =>
    have hfound : pair.1 = key := by simpa using List.find?_some hfind
    rw [← hfound]
    rfl

section Pairs

variable {pairs : List (Text × Text)}

theorem exists_pattern_of_mem {entry : Entry} (h : entry ∈ (storeOf pairs).entries) :
    ∃ pattern, lastPattern? pairs entry.key = some pattern ∧
      entry = .compile entry.key pattern := by
  have hfind := Store.find?_of_mem h
  rw [find?_storeOf] at hfind
  obtain ⟨pattern, hpattern, hentry⟩ := Option.map_eq_some_iff.mp hfind
  exact ⟨pattern, hpattern, hentry.symm⟩

theorem readable_of_mem (h : ∀ pair ∈ pairs, Plain pair.2 ∧ WarningFree (parse pair.2).diagnostics)
    {entry : Entry} (hentry : entry ∈ (storeOf pairs).entries) : entry.Readable := by
  obtain ⟨pattern, hpattern, heq⟩ := exists_pattern_of_mem hentry
  obtain ⟨pair, hfind, rfl⟩ := Option.map_eq_some_iff.mp hpattern
  obtain ⟨hplain, hfree⟩ := h pair (List.mem_reverse.mp (List.mem_of_find?_eq_some hfind))
  rw [heq]
  exact ⟨rfl, verbatim_parse hplain (.inl hfree)⟩

theorem names_of_mem {entry : Entry} (h : entry ∈ (storeOf pairs).entries) :
    entry.compiled.names = variablesOf pairs entry.key := by
  obtain ⟨pattern, hpattern, heq⟩ := exists_pattern_of_mem h
  rw [variablesOf, hpattern]
  rw [heq]
  exact names_eq _

end Pairs

theorem alternatives_propsShape (entries : List Entry) :
    (propsShape entries).alternatives =
      entries.map fun entry => alternative entry.key entry.compiled.names := by
  cases entries <;> rfl

/-- The module of a store is a module in which `translate` returns the rendering of the pattern that
came in last under a key, if and only if each placeholder that comes up in it has a value or nothing
is inherited under its name. Otherwise what is inherited stands in the place of the empty text. The
type of its arguments has an alternative for each key, in the order in which the keys first came in,
which has a record of the variables of that pattern if it has any, and the arm of the key fits the
alternative. -/
theorem moduleText_means (pairs : List (Text × Text))
    (h : ∀ pair ∈ pairs, Plain pair.2 ∧ WarningFree (parse pair.2).diagnostics) :
    ∃ module props arms,
      readModule? (storeOf pairs).moduleText = some module ∧
      (∀ prototype key values,
        module.call? "translate" [.string key, .record values prototype] =
          some (.string (answerWith prototype.text pairs key values)) ∧
        (module.call? "translate" [.string key, .record values prototype] =
            some (.string (answer pairs key values)) ↔
          ∀ pattern, lastPattern? pairs key = some pattern →
            OwnOnly prototype values (parse pattern).nodes)) ∧
      (storeOf pairs).keys = (pairs.map Prod.fst).eraseDups ∧
      module.shape? "Props" = some props ∧
      (pairs = [] → props = .name "never") ∧
      props.alternatives =
        (storeOf pairs).keys.map (fun key => alternative key (variablesOf pairs key)) ∧
      (module.function? "translate").map Function.body =
        some [.switch (argument 0) (arms ++ [defaultClause])] ∧
      List.Forall₂ (fun key arm => Fits key (alternative key (variablesOf pairs key)) arm)
        (storeOf pairs).keys arms := by
  have hreadable : ∀ entry ∈ (storeOf pairs).entries, entry.Readable :=
    fun entry hentry => readable_of_mem h hentry
  refine ⟨moduleOf (storeOf pairs).entries, propsShape (storeOf pairs).entries,
    (storeOf pairs).entries.map Entry.clause, readModule?_moduleText hreadable, ?_, ?_, rfl, ?_, ?_,
    rfl, ?_⟩
  · intro prototype key values
    have hfind : (storeOf pairs).entries.find? (fun entry => entry.key == key) =
        (lastPattern? pairs key).map (Entry.compile key) := find?_storeOf pairs key
    have hcall : (moduleOf (storeOf pairs).entries).call? "translate"
        [.string key, .record values prototype] =
          some (.string (answerWith prototype.text pairs key values)) := by
      rw [call?_moduleOf hreadable, hfind, answerWith]
      cases lastPattern? pairs key <;> rfl
    refine ⟨hcall, ?_⟩
    rw [hcall, Option.some_inj, Value.string.injEq, answerWith_text_eq_iff]
  · rw [storeOf, Store.keys_ofEntries, List.map_map]
    rfl
  · rintro rfl
    rfl
  · rw [alternatives_propsShape, Store.keys, List.map_map]
    refine List.map_congr_left fun entry hentry => ?_
    rw [names_of_mem hentry]
    rfl
  · rw [Store.keys, List.forall₂_map_left_iff, List.forall₂_map_right_iff, List.forall₂_same]
    intro entry hentry
    rw [← names_of_mem hentry]
    exact (hreadable entry hentry).fits

/-- Two patterns under one key, a key that has to be escaped, and a variable with the name of a
function that all ordinary objects inherit. -/
def greetingPairs : List (Text × Text) :=
  [("title", "Welcome"), ("say \"hi\"", "Hi \x7btoString\x7d"),
    ("title", "\x7bn,select,one\x7bdefault:\x7dother\x7b\x7bm\x7d$\x7d\x7d")]

/-- The value of `n`. -/
def greetingValues : Values := fun name => if name = "n" then some "one" else none

theorem moduleText_means_greeting :
    (∀ pair ∈ greetingPairs, Plain pair.2 ∧ WarningFree (parse pair.2).diagnostics) ∧
      ∃ module, readModule? (storeOf greetingPairs).moduleText = some module ∧
        module.call? "translate" [.string "title", .record greetingValues .ordinary] =
          some (.string "default:") ∧
        answer greetingPairs "say \"hi\"" greetingValues = "Hi " ∧
        module.call? "translate" [.string "say \"hi\"", .record greetingValues .ordinary] =
          some (.string ("Hi " ++ Prototype.nativeText "toString")) := by
  have hfirst : (parse "Welcome").diagnostics = [] := by decide +kernel
  have hsecond : (parse "Hi \x7btoString\x7d").diagnostics = [] := by decide +kernel
  have hnodes : (parse "Hi \x7btoString\x7d").nodes =
      [.text "Hi " ⟨0, 3⟩, .placeholder "toString" ⟨3, 13⟩] := by decide +kernel
  have hthird : (parse "\x7bn,select,one\x7bdefault:\x7dother\x7b\x7bm\x7d$\x7d\x7d").diagnostics =
      [] := by decide +kernel
  have h : ∀ pair ∈ greetingPairs, Plain pair.2 ∧ WarningFree (parse pair.2).diagnostics := by
    intro pair hpair
    simp only [greetingPairs, List.mem_cons, List.not_mem_nil, or_false] at hpair
    rcases hpair with rfl | rfl | rfl
    · exact ⟨by decide, by rw [hfirst]; decide⟩
    · exact ⟨by decide, by rw [hsecond]; decide⟩
    · exact ⟨by decide, by rw [hthird]; decide⟩
  have htitle : answerWith Prototype.ordinary.text greetingPairs "title" greetingValues =
      "default:" := by decide +kernel
  have hlast : lastPattern? greetingPairs "say \"hi\"" = some "Hi \x7btoString\x7d".toList := by
    decide +kernel
  have htext : Prototype.ordinary.text? "toString" = some (Prototype.nativeText "toString") := by
    decide
  have hnone : greetingValues "toString" = none := by decide
  have hempty : answer greetingPairs "say \"hi\"" greetingValues = "Hi " := by decide +kernel
  have hinherited : answerWith Prototype.ordinary.text greetingPairs "say \"hi\"" greetingValues =
      "Hi " ++ Prototype.nativeText "toString" := by
    rw [answerWith, hlast]
    simp only [hnodes, renderWith, chosen, chosenNode, List.cons_append, List.nil_append,
      List.flatMap_cons, List.flatMap_nil, List.append_nil, Node.textWith, hnone,
      Option.getD_none, Prototype.text, htext, Option.getD_some]
  obtain ⟨module, -, -, hread, hcall, -⟩ := moduleText_means greetingPairs h
  refine ⟨h, module, hread, ?_, hempty, ?_⟩
  · rw [(hcall _ _ _).1, htitle]
  · rw [(hcall _ _ _).1, hinherited]

end Phrasebook.Catalog
