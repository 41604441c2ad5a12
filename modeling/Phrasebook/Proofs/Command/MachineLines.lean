import Phrasebook.Command.Output
import Phrasebook.Proofs.Pattern.Pointing
import Phrasebook.Proofs.Pattern.Texts
import Phrasebook.Proofs.Text.Basic
import Phrasebook.Proofs.Text.Lines

/-!
# Lines for machines

A report for machines has one record on each line, with colons between its fields. A colon inside of
a field is written with a backslash in front of it, so a reader cuts a line at the colons without
one. Nothing else is escaped. A field that ends with a backslash therefore runs into the next one,
and a field with a line feed takes more than one line.
-/

namespace Phrasebook.Command

open Pattern

namespace Output

/-! ### Fields of a line -/

/-- The fields of a line, which is cut at the colons that no backslash stands in front of. A colon
and the backslash in front of it stand for a colon. -/
def readFields : Text → List Text
  | [] => [[]]
  | '\\' :: ':' :: rest => (readFields rest).modifyHead (':' :: ·)
  | c :: rest =>
    if c = ':' then [] :: readFields rest else (readFields rest).modifyHead (c :: ·)

variable {field rest : Text}

theorem readFields_escaped (rest : Text) :
    readFields ('\\' :: ':' :: rest) = (readFields rest).modifyHead (':' :: ·) := by
  rw [readFields]

theorem readFields_colon (rest : Text) : readFields (':' :: rest) = [] :: readFields rest := by
  rw [readFields]
  · exact if_pos rfl
  · simp

theorem readFields_cons {c : Char} (hc : c ≠ ':') (h : c = '\\' → rest.head? ≠ some ':') :
    readFields (c :: rest) = (readFields rest).modifyHead (c :: ·) := by
  rw [readFields]
  · exact if_neg hc
  · rintro more rfl rfl
    exact h rfl rfl

/-- A field with its colons escaped starts with no colon. -/
theorem head?_escapeColons_append (hne : field ≠ []) (rest : Text) :
    (escapeColons field ++ rest).head? ≠ some ':' := by
  obtain ⟨c, field, rfl⟩ := List.exists_cons_of_ne_nil hne
  rw [escapeColons, List.flatMap_cons]
  split_ifs with hc
  · simp
  · simpa using hc

/-- A field with its colons escaped is read back as a part of the first field, unless it ends with a
backslash and a colon follows. -/
theorem readFields_escape (h : field.getLast? = some '\\' → rest.head? ≠ some ':') :
    readFields (escapeColons field ++ rest) = (readFields rest).modifyHead (field ++ ·) := by
  induction field with
  | nil =>
    have hid : ((([] : Text) ++ ·) : Text → Text) = id := funext fun _ => rfl
    rw [hid, List.modifyHead_id]
    rfl
  | cons c field ih =>
    have hfield : field.getLast? = some '\\' → rest.head? ≠ some ':' := by
      intro hlast
      refine h ?_
      rw [List.getLast?_cons, hlast]
      rfl
    have hcons : escapeColons (c :: field) ++ rest =
        (if c = ':' then ['\\', ':'] else [c]) ++ (escapeColons field ++ rest) := by
      rw [escapeColons, List.flatMap_cons, List.append_assoc]
      rfl
    have hmodify : ((readFields rest).modifyHead (field ++ ·)).modifyHead (c :: ·) =
        (readFields rest).modifyHead (c :: field ++ ·) := by
      rw [List.modifyHead_modifyHead]
      rfl
    rw [hcons]
    split_ifs with hc
    · rw [List.cons_append, List.singleton_append, readFields_escaped, ih hfield, ← hmodify, hc]
    · rw [List.singleton_append, readFields_cons hc, ih hfield, hmodify]
      rintro rfl
      cases field with
      | nil => exact h rfl
      | cons d field => exact head?_escapeColons_append (List.cons_ne_nil d field) rest

/-- A field in front of a separator is read back, unless it ends with a backslash. Then the
separator counts as a colon of the field, and the field goes on. -/
theorem readFields_escape_append (field rest : Text) :
    readFields (escapeColons field ++ ':' :: rest) =
      if field.getLast? = some '\\' then
        (readFields rest).modifyHead (field.dropLast ++ ':' :: ·)
      else field :: readFields rest := by
  split_ifs with hlast
  · obtain ⟨front, rfl⟩ : ∃ front, field = front ++ ['\\'] :=
      ⟨field.dropLast, (List.dropLast_append_getLast? _ hlast).symm⟩
    have hescape : escapeColons (front ++ ['\\']) ++ ':' :: rest =
        escapeColons front ++ '\\' :: ':' :: rest := by
      simp [escapeColons]
    rw [hescape, readFields_escape (by simp), readFields_escaped, List.modifyHead_modifyHead,
      List.dropLast_concat]
    rfl
  · rw [readFields_escape fun h => absurd h hlast, readFields_colon]
    simp

/-! ### Records -/

/-- A record on a line, with colons between its fields. -/
def recordLine (fields : List Text) : Text := Text.joinWith ":" (fields.map escapeColons)

theorem recordLine_cons_cons (first second : Text) (fields : List Text) :
    recordLine (first :: second :: fields) =
      escapeColons first ++ ':' :: recordLine (second :: fields) := by
  simp [recordLine, Text.joinWith, List.intercalate_cons_cons]

/-- Each field that ends with a backslash, the last one excepted, costs one. -/
theorem length_readFields_recordLine {fields : List Text} (hne : fields ≠ []) :
    (readFields (recordLine fields)).length +
      fields.dropLast.countP (fun field => field.getLast? = some '\\') = fields.length := by
  induction fields with
  | nil => exact absurd rfl hne
  | cons first fields ih =>
    cases fields with
    | nil =>
      have hlast : recordLine [first] = escapeColons first ++ [] := by
        simp [recordLine, Text.joinWith]
      rw [hlast, readFields_escape (by simp)]
      rfl
    | cons second fields =>
      have ih := ih (List.cons_ne_nil _ _)
      rw [recordLine_cons_cons, readFields_escape_append, List.dropLast_cons_cons,
        List.countP_cons, List.length_cons]
      simp only [decide_eq_true_eq]
      split_ifs with hlast
      · rw [List.length_modifyHead]
        omega
      · rw [List.length_cons]
        omega

/-- The fields of a record are read back if and only if none of them ends with a backslash, the last
one excepted. -/
theorem readFields_recordLine_eq_iff {fields : List Text} (hne : fields ≠ []) :
    readFields (recordLine fields) = fields ↔
      ∀ field ∈ fields.dropLast, field.getLast? ≠ some '\\' := by
  constructor
  · intro hread field hfield hlast
    have hlength := length_readFields_recordLine hne
    have hpos : 0 < fields.dropLast.countP (fun field => field.getLast? = some '\\') :=
      List.countP_pos_iff.mpr ⟨field, hfield, by simpa using hlast⟩
    rw [hread] at hlength
    omega
  · intro h
    induction fields with
    | nil => exact absurd rfl hne
    | cons first fields ih =>
      cases fields with
      | nil =>
        have hlast : recordLine [first] = escapeColons first ++ [] := by
          simp [recordLine, Text.joinWith]
        rw [hlast, readFields_escape (by simp)]
        simp [readFields]
      | cons second fields =>
        rw [List.dropLast_cons_cons, List.forall_mem_cons] at h
        rw [recordLine_cons_cons, readFields_escape_append, if_neg h.1,
          ih (List.cons_ne_nil _ _) h.2]

theorem lineFeed_mem_recordLine {fields : List Text} :
    '\n' ∈ recordLine fields ↔ ∃ field ∈ fields, '\n' ∈ field := by
  have hescape (field : Text) : '\n' ∈ escapeColons field ↔ '\n' ∈ field := by
    rw [escapeColons, List.mem_flatMap]
    constructor
    · rintro ⟨c, hc, hmem⟩
      split_ifs at hmem
      · simp at hmem
      · rwa [List.mem_singleton.mp hmem]
    · exact fun h => ⟨'\n', h, by simp⟩
  induction fields with
  | nil => simp [recordLine, Text.joinWith]
  | cons first fields ih =>
    cases fields with
    | nil => simp [recordLine, Text.joinWith, hescape]
    | cons second fields =>
      simp only [recordLine_cons_cons, List.mem_append, hescape, List.mem_cons, ih,
        exists_eq_or_imp]
      simp

/-- The records of a report, one on each line. -/
def records? (report : Text) : Option (List (List Text)) :=
  (Text.lines? report).map (·.map readFields)

/-- The records of a report are read back if and only if no field has a line feed and none ends with
a backslash, the last field of each record excepted. -/
theorem records?_eq_iff {records : List (List Text)} (hne : [] ∉ records) :
    records? (records.flatMap fun fields => line (recordLine fields)) = some records ↔
      ∀ fields ∈ records, (∀ field ∈ fields, '\n' ∉ field) ∧
        ∀ field ∈ fields.dropLast, field.getLast? ≠ some '\\' := by
  have hlines : (records.flatMap fun fields => line (recordLine fields)) =
      (records.map recordLine).flatMap fun text => text ++ ['\n'] := by
    rw [List.flatMap_map]
    rfl
  have hfree : (∀ text ∈ records.map recordLine, '\n' ∉ text) ↔
      ∀ fields ∈ records, ∀ field ∈ fields, '\n' ∉ field := by
    simp [lineFeed_mem_recordLine]
  have hread : (records.map recordLine).map readFields = records ↔
      ∀ fields ∈ records, ∀ field ∈ fields.dropLast, field.getLast? ≠ some '\\' :=
    calc (records.map recordLine).map readFields = records
      _ ↔ records.map (readFields ∘ recordLine) = records.map id := by
        rw [List.map_map, List.map_id]
      _ ↔ ∀ fields ∈ records, readFields (recordLine fields) = fields := List.map_inj_left
      _ ↔ _ := forall₂_congr fun fields hfields =>
        readFields_recordLine_eq_iff fun hnil => hne (hnil ▸ hfields)
  rw [records?, hlines, forall₂_and, ← hfree, ← hread]
  constructor
  · intro h
    rw [Text.lines?_flatMap, Option.map_some, Option.some.injEq] at h
    -- Records with line feeds would be read as more records.
    have hlength := congrArg List.length h
    rw [List.length_map, ← List.length_map recordLine, Text.length_flatMap_fields_eq_iff] at hlength
    refine ⟨hlength, ?_⟩
    have hsame := Text.lines?_flatMap_of_forall hlength
    rw [Text.lines?_flatMap, Option.some.injEq] at hsame
    rwa [hsame] at h
  · rintro ⟨hlength, h⟩
    rw [Text.lines?_flatMap_of_forall hlength, Option.map_some, h]

/-! ### Reports -/

theorem escapeColons_of_not_mem {text : Text} (h : ':' ∉ text) : escapeColons text = text := by
  have hsame : text.flatMap (fun c => if c = ':' then ['\\', ':'] else [c]) =
      text.flatMap fun c => [c] :=
    List.flatMap_congr fun c hc => if_neg (ne_of_mem_of_not_mem hc h)
  rw [escapeColons, hsame, List.flatMap_singleton']

variable {file key pattern : Text} {d : Diagnostic}

/-- The record of a diagnostic. -/
def diagnosticRecord (file key pattern : Text) (d : Diagnostic) : List Text :=
  let (row, column) := ((Text.LineIndex.ofText pattern).position d.span.start).display
  [file, key, Text.decimal row, Text.decimal column, d.severity.name, d.problem.code,
    d.problem.message]

/-- The records of keys that one of two languages lacks. -/
def keyRecords (file : Text) (difference : Catalog.KeyDifference) : List (List Text) :=
  difference.missing.map (fun key => [file, "missing-key", key]) ++
    difference.extra.map fun key => [file, "extra-key", key]

/-- A text has none of the characters that matter to a reader of lines. -/
def Unmarked (text : Text) : Prop := ':' ∉ text ∧ '\\' ∉ text ∧ '\n' ∉ text

instance : DecidablePred Unmarked := fun _ => inferInstanceAs (Decidable (_ ∧ _ ∧ _))

theorem Unmarked.getLast?_ne {text : Text} (h : Unmarked text) : text.getLast? ≠ some '\\' :=
  fun hlast => h.2.1 (List.mem_of_getLast? hlast)

theorem unmarked_decimal (n : Nat) : Unmarked (Text.decimal n) :=
  ⟨Text.not_mem_decimal (by decide) n, Text.not_mem_decimal (by decide) n,
    Text.not_mem_decimal (by decide) n⟩

theorem unmarked_severity (severity : Severity) : Unmarked severity.name := by
  cases severity <;> decide

theorem unmarked_code (problem : Problem) : Unmarked problem.code := by
  cases problem <;> dsimp only [Problem.code] <;> decide

theorem diagnostic_machine (hfile : Unmarked file) :
    diagnostic .machine file key pattern d =
      line (recordLine (diagnosticRecord file key pattern d)) := by
  simp only [diagnostic, diagnosticRecord, recordLine, List.map_cons, List.map_nil,
    escapeColons_of_not_mem hfile.1, escapeColons_of_not_mem (unmarked_decimal _).1,
    escapeColons_of_not_mem (unmarked_severity _).1, escapeColons_of_not_mem (unmarked_code _).1]

theorem keys_machine (hfile : Unmarked file) (reference : Text)
    (difference : Catalog.KeyDifference) :
    keys .machine file reference difference =
      (keyRecords file difference).flatMap fun fields => line (recordLine fields) := by
  have hline (kind : Text) (hkind : ':' ∉ kind) (key : Text) :
      Text.joinWith ":" [file, kind, escapeColons key] = recordLine [file, kind, key] := by
    simp only [recordLine, List.map_cons, List.map_nil, escapeColons_of_not_mem hfile.1,
      escapeColons_of_not_mem hkind]
  simp only [keys, keyRecords, List.flatMap_append, List.flatMap_map]
  rw [List.flatMap_congr fun key _ => congrArg line (hline "missing-key" (by decide) key),
    List.flatMap_congr fun key _ => congrArg line (hline "extra-key" (by decide) key)]

end Output

/-- A quotation between fixed words. -/
theorem lineFeed_not_mem_around {front quoted back : Text} (hfront : '\n' ∉ front)
    (hquoted : '\n' ∉ quoted) (hback : '\n' ∉ back) : '\n' ∉ front ++ quoted ++ back := by
  simp [hfront, hquoted, hback]

theorem lineFeed_not_mem_ticked {text : Text} (h : '\n' ∉ text) : '\n' ∉ Text.ticked text := by
  simp [Text.ticked, h]

/-- A message has a line feed only if the pattern has one: what it quotes is a part of the
pattern. -/
theorem lineFeed_not_mem_message {pattern : Text} {d : Diagnostic}
    (hd : d ∈ (parse pattern).diagnostics) (h : '\n' ∉ pattern) : '\n' ∉ d.problem.message := by
  obtain ⟨front, part, back, rfl, -, hfits⟩ := pointsInto_parse pattern d hd
  simp only [List.mem_append, not_or] at h
  obtain ⟨-, hpart, -⟩ := h
  cases hproblem : d.problem with
  | unterminatedBrace => decide +kernel
  | strayClosingBrace => decide +kernel
  | duplicateDefault => decide +kernel
  | unrecognizedGroup content =>
    rw [hproblem] at hfits
    obtain ⟨rfl, -⟩ := hfits
    have hcontent : '\n' ∉ content := fun hmem => hpart (by simp [hmem])
    exact lineFeed_not_mem_around (by decide +kernel) hcontent (by decide +kernel)
  | duplicateCase label =>
    rw [hproblem] at hfits
    obtain ⟨⟨padded, content, rfl, -, -, rfl⟩, -⟩ := hfits
    have hlabel : '\n' ∉ Text.trim padded :=
      fun hmem => hpart (by simp [mem_of_mem_trim hmem])
    exact lineFeed_not_mem_around (by decide +kernel) (lineFeed_not_mem_ticked hlabel)
      (by decide +kernel)
  | missingOther name =>
    rw [hproblem] at hfits
    obtain ⟨-, -, -, heading, strips, last, hparts, rfl, -⟩ := hfits
    have hname : '\n' ∉ heading.name := by
      intro hmem
      refine hpart ?_
      rw [hparts.spelled]
      simp [Heading.spell, hmem]
    exact lineFeed_not_mem_around (by decide +kernel) (lineFeed_not_mem_ticked hname)
      (by decide +kernel)
  | ignoredSelectText text =>
    rw [hproblem] at hfits
    obtain ⟨-, -, -, rfl, -⟩ := hfits
    have htext : '\n' ∉ Text.trim part := fun hmem => hpart (mem_of_mem_trim hmem)
    exact lineFeed_not_mem_around (by decide +kernel) (lineFeed_not_mem_ticked htext)
      (by decide +kernel)

open Output in
/-- What is printed for machines about a pattern is one line from which all seven fields are read
back, if and only if the key and the message have no line feed and the key does not end with a
backslash; the message has none if the pattern has none. What is printed about keys is read back if
and only if no key has a line feed. -/
theorem machine_records_iff {file : Text} (hfile : Unmarked file) :
    (∀ key pattern, ∀ d ∈ (Template.compile pattern).diagnostics,
      (records? (diagnostic .machine file key pattern d) =
          some [diagnosticRecord file key pattern d] ↔
        '\n' ∉ key ∧ key.getLast? ≠ some '\\' ∧ '\n' ∉ d.problem.message) ∧
      ('\n' ∉ pattern → '\n' ∉ d.problem.message)) ∧
    ∀ reference difference,
      records? (keys .machine file reference difference) = some (keyRecords file difference) ↔
        ∀ key ∈ difference.missing ++ difference.extra, '\n' ∉ key := by
  refine ⟨fun key pattern d hd => ⟨?_, lineFeed_not_mem_message hd⟩, fun reference difference => ?_⟩
  · have hsingle : line (recordLine (diagnosticRecord file key pattern d)) =
        [diagnosticRecord file key pattern d].flatMap fun fields => line (recordLine fields) := by
      rw [List.flatMap_singleton]
    rw [diagnostic_machine hfile, hsingle, records?_eq_iff (by simp [diagnosticRecord])]
    -- Five of the seven fields never hold a line feed or a backslash.
    simp only [diagnosticRecord, List.forall_mem_singleton, List.forall_mem_cons, List.dropLast,
      hfile.2.2, hfile.getLast?_ne, (unmarked_decimal _).2.2, (unmarked_decimal _).getLast?_ne,
      (unmarked_severity _).2.2, (unmarked_severity _).getLast?_ne, (unmarked_code _).2.2,
      (unmarked_code _).getLast?_ne, ne_eq, not_false_eq_true, true_and, and_true]
    tauto
  · have hrecord (kind : Text) (hkind : Unmarked kind) (key : Text) :
        ((∀ field ∈ [file, kind, key], '\n' ∉ field) ∧
          ∀ field ∈ [file, kind, key].dropLast, field.getLast? ≠ some '\\') ↔ '\n' ∉ key := by
      simp [hfile.2.2, hfile.getLast?_ne, hkind.2.2, hkind.getLast?_ne]
    rw [keys_machine hfile, records?_eq_iff (by simp [keyRecords]), keyRecords,
      List.forall_mem_append, List.forall_mem_append, List.forall_mem_map, List.forall_mem_map]
    exact and_congr (forall₂_congr fun key _ => hrecord "missing-key" (by decide) key)
      (forall₂_congr fun key _ => hrecord "extra-key" (by decide) key)

/-- What is said about the pattern of one closing brace. -/
def strayBrace : Diagnostic := ⟨.strayClosingBrace, ⟨0, 1⟩⟩

/-- The key `a\` runs into the number of the line, and six fields are read. -/
theorem machine_records_iff_backslash :
    Output.Unmarked "en.json" ∧ strayBrace ∈ (Template.compile "\x7d").diagnostics ∧
    Output.records? (Output.diagnostic .machine "en.json" "a\\" "\x7d" strayBrace) =
      some [(["en.json", "a:1", "1", "warning", "stray-closing-brace",
        strayBrace.problem.message] : List Text)] ∧
    Output.records? (Output.diagnostic .machine "en.json" "a\\" "\x7d" strayBrace) ≠
      some [Output.diagnosticRecord "en.json" "a\\" "\x7d" strayBrace] := by
  have hfile : Output.Unmarked "en.json" := by decide
  have hstray : strayBrace ∈ (Template.compile "\x7d").diagnostics := by decide +kernel
  refine ⟨hfile, hstray, by decide +kernel, fun hread => ?_⟩
  exact (((machine_records_iff hfile).1 "a\\" "\x7d" strayBrace hstray).1.mp hread).2.1 rfl

end Phrasebook.Command
