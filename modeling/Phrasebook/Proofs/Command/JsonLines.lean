import Phrasebook.Command.Output
import Phrasebook.Proofs.Json.Printing
import Phrasebook.Proofs.Pattern.Pointing
import Phrasebook.Proofs.Text.Lines
import Phrasebook.Proofs.Text.Positions

/-!
# Lines of JSON

A report in JSON has one object on each line. Whatever is reported, in whatever order, the lines are
told apart by their line feeds, since a line feed inside of a text is escaped. Each of them is read
back as an object that says what was reported.
-/

namespace Phrasebook.Command

open Pattern Text

/-- Something that is reported. -/
inductive Call where
  /-- A diagnostic of a pattern, with the file and the key that the pattern belongs to. -/
  | diagnostic (file key pattern : Text) (d : Diagnostic)
  /-- The keys that a file and the reference language do not share. -/
  | keys (file reference : Text) (difference : Catalog.KeyDifference)
  /-- The counts at the end of a run. -/
  | summary (s : Summary)

namespace Call

/-- What is printed. -/
def print (format : Format) : Call → Text
  | diagnostic file key pattern d => Output.diagnostic format file key pattern d
  | keys file reference difference => Output.keys format file reference difference
  | summary s => Output.summary format s

/-- The counts of a summary. -/
def counts (s : Summary) : List Nat :=
  [s.languages, s.keys, s.warnings, s.hints, s.written, s.milliseconds]

/-- A diagnostic is one of its pattern, and all numbers have at most 64 bits. -/
def Fits : Call → Prop
  | diagnostic _ _ pattern d =>
    d ∈ (Template.compile pattern).diagnostics ∧ width pattern + 1 < 2 ^ 64
  | keys _ _ _ => True
  | summary s => ∀ n ∈ counts s, n < 2 ^ 64

/-- What is said about a diagnostic whose span covers `part` behind `front`. The line and the column
count from one: the line feeds in front of the span, and the bytes between the last of them and the
span. -/
def diagnosticMembers (file key front part : Text) (d : Diagnostic) : List (Text × Json) :=
  [("type", .string "pattern"), ("file", .string file), ("key", .string key),
    ("severity", .string d.severity.name), ("message", .string d.problem.message),
    ("code", .string d.problem.code), ("line", .count (front.count '\n' + 1)),
    ("column", .count (width ((fields '\n' front).getLastD []) + 1)),
    ("span", .object
      [("start", .count (width front)), ("end", .count (width front + width part))])]

/-- What is said about keys. -/
def keyMembers (file reference : Text) (missing extra : List Text) : List (Text × Json) :=
  [("type", .string "keys"), ("file", .string file), ("reference", .string reference),
    ("missing", .array (missing.map .string)), ("extra", .array (extra.map .string))]

/-- What is said at the end of a run. -/
def summaryMembers (s : Summary) : List (Text × Json) :=
  [("type", .string "summary"), ("languages", .count s.languages), ("keys", .count s.keys),
    ("warnings", .count s.warnings), ("hints", .count s.hints), ("written", .count s.written),
    ("duration_ms", .count s.milliseconds)]

/-- The members of an object say what is reported. -/
def Says (members : List (Text × Json)) : Call → Prop
  | diagnostic file key pattern d =>
    ∃ front part back, pattern = front ++ (part ++ back) ∧
      d.span = ⟨width front, width front + width part⟩ ∧
      members = diagnosticMembers file key front part d
  | keys file reference difference =>
    members = keyMembers file reference difference.missing difference.extra
  | summary s => members = summaryMembers s

theorem count_lineFeed_le (text : Text) : text.count '\n' ≤ width text := by
  induction text with
  | nil => exact Nat.zero_le _
  | cons c text ih =>
    have hsize := c.utf8Size_pos
    rw [List.count_cons, width_cons]
    split_ifs <;> omega

theorem width_getLastD_fields_le (text : Text) :
    width ((fields '\n' text).getLastD []) ≤ width text := by
  have hlast := lastStart_add_width text
  omega

theorem printable_count {n : Nat} (h : n < 2 ^ 64) (room : Nat) :
    Json.Printable room (.count n) := by
  have hfits : Json.Fits n := ⟨by omega, by exact_mod_cast h⟩
  cases room <;> exact hfits

theorem printable_string (text : Text) (room : Nat) : Json.Printable room (.string text) := by
  cases room <;> exact trivial

theorem printable_strings (texts : List Text) (room : Nat) :
    Json.Printable (room + 1) (.array (texts.map .string)) := by
  rw [Json.Printable, List.forall_mem_map]
  exact fun text _ => printable_string text room

/-- What is printed for a call is an object on a line of its own. It says what was reported, and it
can be read back. -/
theorem exists_jsonLine {call : Call} (h : call.Fits) :
    ∃ members, call.print .json = Output.jsonLine members ∧ call.Says members ∧
      Json.Printable Json.depthLimit (.object members) := by
  cases call with
  | diagnostic file key pattern d =>
    obtain ⟨hd, hwidth⟩ := h
    obtain ⟨front, part, back, rfl, hspan, -⟩ := pointsInto_parse pattern d hd
    rw [Nat.zero_add] at hspan
    have hposition := position_width front (part ++ back)
    rw [width_append, width_append] at hwidth
    have hline := count_lineFeed_le front
    have hcolumn := width_getLastD_fields_le front
    refine ⟨diagnosticMembers file key front part d, ?_, ⟨front, part, back, rfl, hspan, rfl⟩, ?_⟩
    · simp only [print, Output.diagnostic, hspan, hposition, Position.display]
      rfl
    · have hkeys : (["type", "file", "key", "severity", "message", "code", "line", "column",
          "span"] : List Text).Nodup := by decide +kernel
      have hends : (["start", "end"] : List Text).Nodup := by decide
      refine ⟨hkeys, ?_⟩
      simp only [diagnosticMembers, List.forall_mem_cons]
      refine ⟨printable_string _ _, printable_string _ _, printable_string _ _,
        printable_string _ _, printable_string _ _, printable_string _ _,
        printable_count (by omega) _, printable_count (by omega) _, ⟨hends, ?_⟩, by simp⟩
      simp only [List.forall_mem_cons]
      exact ⟨printable_count (by omega) _, printable_count (by omega) _, by simp⟩
  | keys file reference difference =>
    have hkeys : (["type", "file", "reference", "missing", "extra"] : List Text).Nodup := by
      decide +kernel
    refine ⟨keyMembers file reference difference.missing difference.extra, rfl, rfl, hkeys, ?_⟩
    simp only [keyMembers, List.forall_mem_cons]
    exact ⟨printable_string _ _, printable_string _ _, printable_string _ _, printable_strings _ _,
      printable_strings _ _, by simp⟩
  | summary s =>
    have hkeys : (["type", "languages", "keys", "warnings", "hints", "written",
        "duration_ms"] : List Text).Nodup := by decide +kernel
    refine ⟨summaryMembers s, rfl, rfl, hkeys, ?_⟩
    simp only [Fits, counts, List.forall_mem_cons] at h
    obtain ⟨hlanguages, hkeyCount, hwarnings, hhints, hwritten, hmilliseconds, -⟩ := h
    simp only [summaryMembers, List.forall_mem_cons]
    exact ⟨printable_string _ _, printable_count hlanguages _, printable_count hkeyCount _,
      printable_count hwarnings _, printable_count hhints _, printable_count hwritten _,
      printable_count hmilliseconds _, by simp⟩

/-- A line is read back as an object that says what is reported. -/
def ReadFrom (call : Call) (line : Text) : Prop :=
  line ≠ [] ∧ ∃ members, Json.read line = .ok (.object members) ∧ call.Says members

/-- One line is printed for a call, and it is read back. -/
theorem exists_readFrom {call : Call} (h : call.Fits) :
    ∃ line, call.print .json = line ++ ['\n'] ∧ '\n' ∉ line ∧ call.ReadFrom line := by
  obtain ⟨members, hprint, hsays, hprintable⟩ := exists_jsonLine h
  obtain ⟨c, more, hstart, -⟩ := Json.startsValue_render hprintable
  refine ⟨(Json.object members).render, hprint, Json.lineFeed_not_mem_render hprintable, ?_,
    members, Json.read_render hprintable, hsays⟩
  rw [hstart]
  exact List.cons_ne_nil c more

/-- The lines that are printed for calls are those of each call, in the same order. -/
theorem exists_forall₂_readFrom {calls : List Call} (h : ∀ call ∈ calls, call.Fits) :
    ∃ lines : List Text, calls.flatMap (print .json) = lines.flatMap (fun line => line ++ ['\n']) ∧
      (∀ line ∈ lines, '\n' ∉ line) ∧ List.Forall₂ ReadFrom calls lines := by
  induction calls with
  | nil => exact ⟨[], rfl, by simp, .nil⟩
  | cons call calls ih =>
    obtain ⟨hcall, hcalls⟩ := List.forall_mem_cons.mp h
    obtain ⟨line, hprint, hline, hread⟩ := exists_readFrom hcall
    obtain ⟨lines, hprints, hlines, hreads⟩ := ih hcalls
    refine ⟨line :: lines, ?_, List.forall_mem_cons.mpr ⟨hline, hlines⟩, .cons hread hreads⟩
    rw [List.flatMap_cons, hprint, hprints, List.flatMap_cons]

end Call

/-- A report in JSON has one line for each call, in the same order. No line is empty, and each is
read back as an object that says what is reported. -/
theorem json_lines_read {calls : List Call} (h : ∀ call ∈ calls, call.Fits) :
    ∃ lines, lines? (calls.flatMap (Call.print .json)) = some lines ∧
      List.Forall₂ (fun call line => line ≠ [] ∧
        ∃ members, Json.read line = .ok (.object members) ∧ call.Says members) calls lines := by
  obtain ⟨lines, hprint, hlines, hreads⟩ := Call.exists_forall₂_readFrom h
  rw [hprint]
  exact ⟨lines, lines?_flatMap_of_forall hlines, hreads⟩

/-- A key with a line feed and a pattern of two lines, a key that is missing, and counts. -/
def threeCalls : List Call :=
  [.diagnostic "en.json" "a\n\"b" "x\n\x7d" ⟨.strayClosingBrace, ⟨2, 3⟩⟩,
    .keys "de.json" "en" ⟨["c\\"], []⟩, .summary ⟨2, 3, 1, 0, 2, 17⟩]

theorem json_lines_read_three :
    (∀ call ∈ threeCalls, call.Fits) ∧
      ∃ lines, lines? (threeCalls.flatMap (Call.print .json)) = some lines ∧ lines.length = 3 ∧
        List.Forall₂ (fun call line => line ≠ [] ∧
          ∃ members, Json.read line = .ok (.object members) ∧ call.Says members)
          threeCalls lines := by
  have hfits : ∀ call ∈ threeCalls, call.Fits := by
    simp only [threeCalls, List.forall_mem_cons]
    exact ⟨⟨by decide +kernel, by decide⟩, trivial, by simp [Call.Fits, Call.counts], by simp⟩
  obtain ⟨lines, hlines, hreads⟩ := json_lines_read hfits
  exact ⟨hfits, lines, hlines, hreads.length_eq.symm, hreads⟩

end Phrasebook.Command
