import Phrasebook.Catalog.Basic
import Phrasebook.Command.Options
import Phrasebook.Text.Lines

/-!
# Reports of a run

What a run prints about patterns, about keys, and at its end, in three formats. Every line ends
with a line feed.
-/

namespace Phrasebook.Command

open Pattern

/-- The counts at the end of a run. -/
structure Summary where
  languages : Nat
  keys : Nat
  warnings : Nat
  hints : Nat
  written : Nat
  milliseconds : Nat
  deriving DecidableEq, Repr

namespace Output

/-- A line of output. -/
def line (text : Text) : Text := text ++ ['\n']

/-- The ending of a noun after a count. -/
def plural (count : Nat) : Text := if count = 1 then "" else "s"

/-- A count and a noun. -/
def counted (count : Nat) (noun : Text) : Text :=
  Text.decimal count ++ " " ++ noun ++ plural count

/-- A text in a colour of the terminal. -/
def coloured (colour : Text) (text : Text) : Text :=
  "\x1b[" ++ colour ++ "m" ++ text ++ "\x1b[0m"

/-- The word `warning`, coloured. -/
def warning : Text := coloured "33" "warning"

/-- A severity, coloured. -/
def severity : Severity → Text
  | .warning => warning
  | .hint => coloured "34" "hint"

/-- A text with a backslash in front of every colon. -/
def escapeColons (text : Text) : Text :=
  text.flatMap fun c => if c = ':' then ['\\', ':'] else [c]

/-- An object on a line of its own. -/
def jsonLine (members : List (Text × Json)) : Text := line (Json.object members).render

/-! ### Patterns -/

/-- What is printed about a pattern in a file. -/
def diagnostic (format : Format) (file key pattern : Text) (d : Diagnostic) : Text :=
  let (row, column) := ((Text.LineIndex.ofText pattern).position d.span.start).display
  match format with
  | .human =>
    line (file ++ " [" ++ key ++ "]:" ++ Text.decimal row ++ ":" ++ Text.decimal column ++ ": " ++
      severity d.severity ++ "[" ++ d.problem.code ++ "]: " ++ d.problem.message)
  | .json =>
    jsonLine
      [("type", .string "pattern"), ("file", .string file), ("key", .string key),
        ("severity", .string d.severity.name), ("message", .string d.problem.message),
        ("code", .string d.problem.code), ("line", .count row), ("column", .count column),
        ("span", .object [("start", .count d.span.start), ("end", .count d.span.stop)])]
  | .machine =>
    line (Text.joinWith ":"
      [file, escapeColons key, Text.decimal row, Text.decimal column, d.severity.name,
        d.problem.code, escapeColons d.problem.message])

/-- What is printed about the patterns of entries in a file. -/
def diagnostics (format : Format) (file : Text) (entries : List Catalog.Entry) : Text :=
  entries.flatMap fun entry =>
    entry.compiled.diagnostics.flatMap (diagnostic format file entry.key entry.pattern)

/-! ### Keys -/

/-- What is printed about a language that has other keys than the reference language. -/
def keys (format : Format) (file reference : Text) (d : Catalog.KeyDifference) : Text :=
  match format with
  | .human =>
    let about (words : Text) (keys : List Text) : Text :=
      if keys.isEmpty then []
      else
        line (file ++ ": " ++ warning ++ ": " ++ words ++ " present in " ++
          Text.ticked reference ++ ": " ++ Text.joinWith ", " keys)
    about ("missing " ++ counted d.missing.length "key") d.missing ++
      about (counted d.extra.length "key" ++ " not") d.extra
  | .json =>
    jsonLine
      [("type", .string "keys"), ("file", .string file), ("reference", .string reference),
        ("missing", .array (d.missing.map .string)), ("extra", .array (d.extra.map .string))]
  | .machine =>
    let about (kind : Text) (keys : List Text) : Text :=
      keys.flatMap fun key => line (Text.joinWith ":" [file, kind, escapeColons key])
    about "missing-key" d.missing ++ about "extra-key" d.extra

/-! ### Summaries -/

/-- What is printed at the end of a run. -/
def summary (format : Format) (s : Summary) : Text :=
  match format with
  | .human =>
    let time := Text.decimal s.milliseconds ++ "ms"
    let result :=
      if s.warnings = 0 then
        line (coloured "32" "✓" ++ " Compiled " ++ counted s.keys "key" ++ " in " ++
          counted s.languages "language" ++ " (" ++ time ++ ")")
      else
        line (coloured "33" "⚠" ++ " Found " ++ counted s.warnings "warning" ++ " in " ++
          counted s.keys "key" ++ " across " ++ counted s.languages "language") ++
        line ("Time: " ++ time)
    let written := if s.written = 0 then [] else line ("Wrote " ++ counted s.written "file")
    line [] ++ result ++ written
  | .json =>
    jsonLine
      [("type", .string "summary"), ("languages", .count s.languages), ("keys", .count s.keys),
        ("warnings", .count s.warnings), ("hints", .count s.hints),
        ("written", .count s.written), ("duration_ms", .count s.milliseconds)]
  | .machine => []

end Output

end Phrasebook.Command
