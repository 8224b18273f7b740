import LookmlProject.Animation
import LookmlProject.Bytes.Base64
import LookmlProject.Bytes.Utf8
import LookmlProject.Calendar
import LookmlProject.CommandLine.Command
import LookmlProject.CommandLine.Run
import LookmlProject.CommandLine.Switch
import LookmlProject.Credential
import LookmlProject.Csv.Column
import LookmlProject.Csv.Reader
import LookmlProject.Csv.Records
import LookmlProject.Csv.Table
import LookmlProject.Csv.Writer
import LookmlProject.Decimal.Layout
import LookmlProject.Decimal.Scan
import LookmlProject.Decimal.Shortest
import LookmlProject.Decimal.Whole
import LookmlProject.Definitions.Server
import LookmlProject.Definitions.Source
import LookmlProject.Edit.Lines
import LookmlProject.Edit.Request
import LookmlProject.Fault
import LookmlProject.Field
import LookmlProject.Graph.Basic
import LookmlProject.Graph.Declarations
import LookmlProject.Graph.Drawing
import LookmlProject.Graph.Orphans
import LookmlProject.Graph.Picture
import LookmlProject.Graph.Project
import LookmlProject.Graph.Reach
import LookmlProject.Graph.References
import LookmlProject.Graph.Roots
import LookmlProject.Json.Basic
import LookmlProject.Json.Reader
import LookmlProject.Json.Writer
import LookmlProject.Keyed
import LookmlProject.Lint.Linter
import LookmlProject.Lint.Row
import LookmlProject.Lint.Run
import LookmlProject.Lookml.Document
import LookmlProject.Lookml.Item
import LookmlProject.Lookml.Lexer
import LookmlProject.Lookml.Parser
import LookmlProject.Lookml.Token
import LookmlProject.Main
import LookmlProject.Rule.Basic
import LookmlProject.Rule.DocumentRules
import LookmlProject.Rule.FieldRules
import LookmlProject.Rule.NoOrphans
import LookmlProject.Rule.Registry
import LookmlProject.Rule.Shared
import LookmlProject.Settings
import LookmlProject.Store.Basic
import LookmlProject.Store.Glob
import LookmlProject.Store.Journal
import LookmlProject.Store.Report
import LookmlProject.Text.Blank
import LookmlProject.Text.Case.Lower
import LookmlProject.Text.Case.Shift
import LookmlProject.Text.Case.Upper
import LookmlProject.Text.Digit
import LookmlProject.Text.Lines
import LookmlProject.Text.Order
import LookmlProject.Text.Printable
import LookmlProject.Text.Quoted
import LookmlProject.Text.Search
import LookmlProject.Text.Units
import LookmlProject.Text.Word
import LookmlProject.Trail
import LookmlProject.Update
import LookmlProject.Upload
import LookmlProject.Value.Access
import LookmlProject.Value.Basic
import LookmlProject.Value.Display
import LookmlProject.Value.Equal
import LookmlProject.Value.Order
import LookmlProject.Value.Whole
import LookmlProject.Proofs.Kinds
import LookmlProject.Proofs.Orphans
import LookmlProject.Proofs.Unordered
import LookmlProject.Proofs.Histories
import LookmlProject.Proofs.Edits
import LookmlProject.Proofs.Grammar
import LookmlProject.Proofs.Reading
import LookmlProject.Proofs.Spelling
import LookmlProject.Proofs.Lexing
import LookmlProject.Proofs.Descriptions
import LookmlProject.Proofs.Parts
import LookmlProject.Proofs.Lines
import LookmlProject.Proofs.Layout
import LookmlProject.Proofs.RoundTrip
import LookmlProject.Proofs.LintRows
import LookmlProject.Proofs.Bytes
import LookmlProject.Proofs.PlainValues
import LookmlProject.Proofs.JsonText
import LookmlProject.Proofs.Apostrophes
import LookmlProject.Proofs.Credentials
import LookmlProject.Proofs.Recorded
import LookmlProject.Proofs.OrphanRows
import LookmlProject.Proofs.FieldRows
import LookmlProject.Proofs.Insertion
import LookmlProject.Proofs.Containment
import LookmlProject.Proofs.Remarking
import LookmlProject.Proofs.Routing
import LookmlProject.Proofs.AllOrNothing
import LookmlProject.Proofs.CsvText
import LookmlProject.Proofs.CsvColumns
import LookmlProject.Proofs.Readings
import LookmlProject.Proofs.Providers
import LookmlProject.Proofs.Additions
import LookmlProject.Proofs.Replacements
import LookmlProject.Proofs.Quoting
import LookmlProject.Proofs.SqlReferences
import LookmlProject.Proofs.ValueNames
import LookmlProject.Proofs.Pictures
import LookmlProject.Proofs.InSync
import LookmlProject.Proofs.FieldVerdicts
import LookmlProject.Proofs.ParametersRead
import LookmlProject.Proofs.SmallLetters
import LookmlProject.Proofs.Lexicon
import LookmlProject.Proofs.FieldMarks
import LookmlProject.Proofs.FileNames
import LookmlProject.Proofs.Extraction
import LookmlProject.Proofs.SharedRegistry
import LookmlProject.Proofs.Frames
import LookmlProject.Proofs.KeyFiles
