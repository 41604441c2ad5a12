import Phrasebook.Catalog.Basic
import Phrasebook.Catalog.Error
import Phrasebook.Catalog.Flatten
import Phrasebook.Catalog.Module
import Phrasebook.Catalog.Store
import Phrasebook.Command.Arguments
import Phrasebook.Command.Config
import Phrasebook.Command.Help
import Phrasebook.Command.Options
import Phrasebook.Command.Output
import Phrasebook.Command.Run
import Phrasebook.Command.Settings
import Phrasebook.Event
import Phrasebook.Files.Path
import Phrasebook.Files.Tree
import Phrasebook.Json.Basic
import Phrasebook.Json.Fault
import Phrasebook.Json.Reader
import Phrasebook.Json.Scanner
import Phrasebook.Layout
import Phrasebook.Main
import Phrasebook.Number.Basic
import Phrasebook.Number.Double
import Phrasebook.Number.Shortest
import Phrasebook.Pattern.Diagnostic
import Phrasebook.Pattern.Header
import Phrasebook.Pattern.Node
import Phrasebook.Pattern.Parse
import Phrasebook.Pattern.Segment
import Phrasebook.Proofs.Catalog.Dispatch
import Phrasebook.Proofs.Catalog.DottedKeys
import Phrasebook.Proofs.Catalog.Leaves
import Phrasebook.Proofs.Catalog.ModuleReading
import Phrasebook.Proofs.Catalog.NumberLeaves
import Phrasebook.Proofs.Catalog.Store
import Phrasebook.Proofs.Command.Discovery
import Phrasebook.Proofs.Command.Effects
import Phrasebook.Proofs.Command.JsonLines
import Phrasebook.Proofs.Command.MachineLines
import Phrasebook.Proofs.Command.Repeating
import Phrasebook.Proofs.Command.Running
import Phrasebook.Proofs.Command.Spellings
import Phrasebook.Proofs.Command.Strict
import Phrasebook.Proofs.Files.Changes
import Phrasebook.Proofs.Files.Listing
import Phrasebook.Proofs.Files.Names
import Phrasebook.Proofs.Files.Overwriting
import Phrasebook.Proofs.Files.Writing
import Phrasebook.Proofs.Json.DecimalNumerals
import Phrasebook.Proofs.Json.NumberTexts
import Phrasebook.Proofs.Json.NumberValues
import Phrasebook.Proofs.Json.Numerals
import Phrasebook.Proofs.Json.Objects
import Phrasebook.Proofs.Json.Printing
import Phrasebook.Proofs.Lists
import Phrasebook.Proofs.Number.DecimalValues
import Phrasebook.Proofs.Number.Minimal
import Phrasebook.Proofs.Number.Nearest
import Phrasebook.Proofs.Number.Rounding
import Phrasebook.Proofs.Number.Shortest
import Phrasebook.Proofs.Pattern.Braces
import Phrasebook.Proofs.Pattern.ByteScan
import Phrasebook.Proofs.Pattern.Checked
import Phrasebook.Proofs.Pattern.Chunks
import Phrasebook.Proofs.Pattern.Coverage
import Phrasebook.Proofs.Pattern.Cutting
import Phrasebook.Proofs.Pattern.Grammar
import Phrasebook.Proofs.Pattern.Grouping
import Phrasebook.Proofs.Pattern.Heading
import Phrasebook.Proofs.Pattern.Locality
import Phrasebook.Proofs.Pattern.Parsing
import Phrasebook.Proofs.Pattern.Places
import Phrasebook.Proofs.Pattern.Pointing
import Phrasebook.Proofs.Pattern.Recognition
import Phrasebook.Proofs.Pattern.Shape
import Phrasebook.Proofs.Pattern.Shifting
import Phrasebook.Proofs.Pattern.Steps
import Phrasebook.Proofs.Pattern.Texts
import Phrasebook.Proofs.Pattern.Unmatched
import Phrasebook.Proofs.Pattern.Unreachable
import Phrasebook.Proofs.Provider
import Phrasebook.Proofs.Script.Expression
import Phrasebook.Proofs.Script.Program
import Phrasebook.Proofs.Script.ProgramReader
import Phrasebook.Proofs.Script.Reader
import Phrasebook.Proofs.Script.Spelling
import Phrasebook.Proofs.Template.Composition
import Phrasebook.Proofs.Template.Meaning
import Phrasebook.Proofs.Template.Parameters
import Phrasebook.Proofs.Template.Quoting
import Phrasebook.Proofs.Template.Rendering
import Phrasebook.Proofs.Template.Variables
import Phrasebook.Proofs.Text.Basic
import Phrasebook.Proofs.Text.Blanks
import Phrasebook.Proofs.Text.Bytes
import Phrasebook.Proofs.Text.Fields
import Phrasebook.Proofs.Text.Lines
import Phrasebook.Proofs.Text.LowerCase
import Phrasebook.Proofs.Text.Positions
import Phrasebook.Provider
import Phrasebook.Span
import Phrasebook.Template
import Phrasebook.Text.Basic
import Phrasebook.Text.Lines
import Phrasebook.Text.LowerCase
import Phrasebook.Text.Visible
