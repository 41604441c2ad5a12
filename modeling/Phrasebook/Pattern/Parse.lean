import Phrasebook.Pattern.Diagnostic
import Phrasebook.Pattern.Header
import Phrasebook.Pattern.Segment

/-!
# Reading patterns

A pattern is read level by level. Its segments become nodes: a literal is a text, a group around
a word is a variable, a group with a header is a select, and any other group is kept as text. The
arms of a select are the groups after its header, each with the literal in front of it as label,
and their contents are patterns again.

## Main definitions

* `Arm.ofSegments`: the arms of a select.
* `Parsed`: nodes and diagnostics, in the order of discovery.
* `parse`, `parseSelection`: reading a pattern, and reading the inside of a select.
-/

namespace Phrasebook.Pattern

open Text

/-- What was read from a text: its nodes, and what had to be said about it. -/
structure Parsed where
  nodes : List Node := []
  diagnostics : List Diagnostic := []

namespace Parsed

/-- The results of two texts, one after the other. -/
def append (a b : Parsed) : Parsed := ⟨a.nodes ++ b.nodes, a.diagnostics ++ b.diagnostics⟩

/-- The results of a list of texts, in order. -/
def concat : List Parsed → Parsed
  | [] => {}
  | first :: rest => first.append (concat rest)

end Parsed

/-- The diagnostics of the braces that do not match, for a text that starts at `base`. -/
def Scan.diagnostics (scan : Scan) (base : Nat) : List Diagnostic :=
  scan.strays.map (fun offset => ⟨.strayClosingBrace, ⟨base + offset, base + offset + 1⟩⟩) ++
    scan.unterminated.toList.map fun span => ⟨.unterminatedBrace, span.shift base⟩

/-- A literal that may turn out to be the label of the group after it. -/
structure Label where
  text : Text
  span : Span

/-- An arm of a select: a label without the blanks around it, and a body that is not read yet. -/
structure Arm where
  label : Text
  /-- Where the label and the group stand, from the start of the text after the header. -/
  span : Span
  content : Text
  /-- Where the content starts, from the start of the text after the header. -/
  start : Nat

/-- The arms among segments, and the literal after the last one. A group without a literal in
front of it has the empty label. -/
def Arm.ofSegments (pending : Option Label) : List Segment → List Arm × Option Label
  | [] => ([], pending)
  | .literal text span :: rest => ofSegments (some ⟨text, span⟩) rest
  | .group content span :: rest =>
    let label := pending.getD ⟨[], .point span.start⟩
    let (arms, last) := ofSegments none rest
    (⟨trim label.text, label.span.cover span, content, span.start + 1⟩ :: arms, last)

/-- An arm whose body has been read. -/
structure ReadArm where
  label : Text
  span : Span
  body : Parsed

namespace ReadArm

/-- What is said about arms, given the labels in front of them: first about the body of an arm,
then about its label if it has occurred before. -/
def diagnostics (earlier : List Text) : List ReadArm → List Diagnostic
  | [] => []
  | arm :: rest =>
    let repeated :=
      if arm.label ∈ earlier then
        [⟨if arm.label = other then .duplicateDefault else .duplicateCase arm.label, arm.span⟩]
      else []
    arm.body.diagnostics ++ repeated ++ diagnostics (arm.label :: earlier) rest

/-- The cases among arms: all but those with the label of the fallback. -/
def cases (arms : List ReadArm) : List Case :=
  (arms.filter fun arm => arm.label ≠ other).map fun arm => ⟨arm.label, arm.body.nodes, arm.span⟩

/-- The fallback among arms: the last one with its label. -/
def fallback? (arms : List ReadArm) : Option (List Node) :=
  (arms.filter fun arm => arm.label = other).getLast?.map fun arm => arm.body.nodes

end ReadArm

/-- What is said about the literal after the last arm: that it is ignored, unless it is blank. -/
def Label.diagnostics (last : Option Label) (base : Nat) : List Diagnostic :=
  match last with
  | none => []
  | some label =>
    let text := trim label.text
    if text.isEmpty then [] else [⟨.ignoredSelectText text, label.span.shift base⟩]

/-- The select inside a text that starts at `base`, with `body` to read the bodies of its arms.
A text without a header is a select on the empty name. -/
def selectionWith (body : Text → Nat → Parsed) (text : Text) (base : Nat) :
    Selection × List Diagnostic :=
  let header := (Header.read? text).getD ⟨[], text⟩
  let span : Span := ⟨base, base + width text⟩
  let armsBase := base + (width text - width header.rest)
  let scan := Scan.ofText header.rest
  let (arms, last) := Arm.ofSegments none scan.segments
  let arms := arms.map fun arm : Arm =>
    (⟨arm.label, arm.span.shift armsBase, body arm.content (armsBase + arm.start)⟩ : ReadArm)
  let fallback := ReadArm.fallback? arms
  let missing := if fallback.isSome then [] else [⟨.missingOther header.name, span⟩]
  (⟨header.name, ReadArm.cases arms, fallback.getD (emptyBody span), span⟩,
    scan.diagnostics armsBase ++ ReadArm.diagnostics [] arms ++ Label.diagnostics last armsBase ++
      missing)

/-- The node of a group, with `body` to read the bodies of arms. The span includes the braces. -/
def groupWith (body : Text → Nat → Parsed) (content : Text) (span : Span) : Parsed :=
  if isPaddedWord content then { nodes := [.placeholder (trim content) span] }
  else if (Header.read? content).isSome then
    let (selection, diagnostics) := selectionWith body content (span.start + 1)
    { nodes := [selection.nodeAt span], diagnostics }
  else
    { nodes := [.text content span], diagnostics := [⟨.unrecognizedGroup content, span⟩] }

/-- The nodes of a text that starts at `base`, with `body` to read the bodies of arms. -/
def nodesWith (body : Text → Nat → Parsed) (text : Text) (base : Nat) : Parsed :=
  let scan := Scan.ofText text
  Parsed.append { diagnostics := scan.diagnostics base } <|
    Parsed.concat <| scan.segments.map fun
      | .literal literal span => { nodes := [.text literal (span.shift base)] }
      | .group content span => groupWith body content (span.shift base)

/-- The nodes of a text that starts at `base`. The body of an arm is shorter than the text that
holds it, so the guard never refuses one. -/
def parseAt (text : Text) (base : Nat) : Parsed :=
  nodesWith (fun inner start => if inner.length < text.length then parseAt inner start else {})
    text base
termination_by text.length

/-- Reads a pattern. -/
def parse (pattern : Text) : Parsed := parseAt pattern 0

/-- Reads the inside of a select, without the outer braces. -/
def parseSelection (text : Text) : Selection := (selectionWith parseAt text 0).1

end Phrasebook.Pattern
