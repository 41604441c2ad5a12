import Phrasebook.Pattern.Node

/-!
# Diagnostics

Reading a pattern never fails: what cannot be understood is kept as text or dropped, and a
diagnostic says so. A diagnostic is a problem and the span it was found at; its code, its severity
and its message depend on the problem alone.
-/

namespace Phrasebook.Pattern

/-- How serious a problem is. -/
inductive Severity where
  /-- The result is most likely not what the author meant. -/
  | warning
  /-- The result is well defined, but something could be added. -/
  | hint
  deriving DecidableEq, Repr

/-- The name of a severity. -/
def Severity.name : Severity → Text
  | .warning => "warning"
  | .hint => "hint"

/-- What can be wrong with a pattern. -/
inductive Problem where
  /-- A group is neither a variable nor a select. -/
  | unrecognizedGroup (content : Text)
  /-- A brace is opened and never closed. -/
  | unterminatedBrace
  /-- A brace is closed that was never opened. -/
  | strayClosingBrace
  /-- A select has two cases with one label. -/
  | duplicateCase (label : Text)
  /-- A select has two fallbacks. -/
  | duplicateDefault
  /-- A select has no fallback. -/
  | missingOther (name : Text)
  /-- A select has text after its last case. -/
  | ignoredSelectText (text : Text)
  deriving DecidableEq, Repr

namespace Problem

/-- The short name of a problem. -/
def code : Problem → Text
  | unrecognizedGroup _ => "unrecognized-group"
  | unterminatedBrace => "unterminated-brace"
  | strayClosingBrace => "stray-closing-brace"
  | duplicateCase _ => "duplicate-case"
  | duplicateDefault => "duplicate-default"
  | missingOther _ => "missing-other"
  | ignoredSelectText _ => "ignored-select-text"

/-- Only a missing fallback leaves the meaning of a pattern beyond doubt. -/
def severity : Problem → Severity
  | missingOther _ => .hint
  | _ => .warning

/-- The sentence that describes a problem. -/
def message : Problem → Text
  | unrecognizedGroup content =>
    "Unrecognized placeholder `\x7b" ++ content ++ "\x7d` is emitted as text"
  | unterminatedBrace => "Unterminated `\x7b`; the rest of the pattern is dropped"
  | strayClosingBrace =>
    "Unmatched `\x7d`; the text up to the next balancing `\x7b` is emitted literally"
  | duplicateCase label => "Duplicate select case " ++ Text.ticked label ++ " is unreachable"
  | duplicateDefault => "Duplicate `other` case replaces the earlier one"
  | missingOther name =>
    "Select on " ++ Text.ticked name ++ " has no `other` case; it falls back to an empty string"
  | ignoredSelectText text =>
    "Text " ++ Text.ticked text ++ " after the last select case is ignored"

end Problem

/-- A problem and where it was found. -/
structure Diagnostic where
  problem : Problem
  span : Span
  deriving DecidableEq, Repr

/-- How serious a diagnostic is. -/
def Diagnostic.severity (d : Diagnostic) : Severity := d.problem.severity

end Phrasebook.Pattern
