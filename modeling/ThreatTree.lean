import ThreatTree.Assoc
import ThreatTree.Command.Arguments
import ThreatTree.Command.Outcome
import ThreatTree.Command.Run
import ThreatTree.Decimal.Format
import ThreatTree.Decimal.Reading
import ThreatTree.Decimal.Shortest
import ThreatTree.Distinct
import ThreatTree.Document.Basic
import ThreatTree.Document.Category
import ThreatTree.Document.Grammar
import ThreatTree.Document.Malformed
import ThreatTree.Document.OfRecord
import ThreatTree.Document.OfValue
import ThreatTree.Document.Outline
import ThreatTree.Dot.Content
import ThreatTree.Dot.Digraph
import ThreatTree.Dot.Identifier
import ThreatTree.Dot.Reading
import ThreatTree.Dot.Token
import ThreatTree.Failure
import ThreatTree.File.Folder
import ThreatTree.File.Path
import ThreatTree.Graph.Basic
import ThreatTree.Graph.Compile
import ThreatTree.Graph.Drawing
import ThreatTree.Layout
import ThreatTree.Location.Bracketed
import ThreatTree.Location.Header
import ThreatTree.Location.HeaderRule
import ThreatTree.Location.Index
import ThreatTree.Location.Line
import ThreatTree.Location.Offsets
import ThreatTree.Location.Span
import ThreatTree.Main
import ThreatTree.Page.Html
import ThreatTree.Page.Json
import ThreatTree.Page.Json.Reading
import ThreatTree.Page.Preview
import ThreatTree.Page.Template
import ThreatTree.Proofs.Command.Agreement
import ThreatTree.Proofs.Command.Change
import ThreatTree.Proofs.Command.Run
import ThreatTree.Proofs.Command.Title
import ThreatTree.Proofs.Decimal.Digits
import ThreatTree.Proofs.Document.Outline
import ThreatTree.Proofs.Document.Parts
import ThreatTree.Proofs.Document.Refusal
import ThreatTree.Proofs.Document.Spelling
import ThreatTree.Proofs.Dot.Content
import ThreatTree.Proofs.Dot.Digraph
import ThreatTree.Proofs.Dot.Identifier
import ThreatTree.Proofs.Dot.Label
import ThreatTree.Proofs.Dot.Line
import ThreatTree.Proofs.Dot.Name
import ThreatTree.Proofs.Dot.Quoting
import ThreatTree.Proofs.File.Folder
import ThreatTree.Proofs.File.Path
import ThreatTree.Proofs.Graph.Check
import ThreatTree.Proofs.Graph.Declared
import ThreatTree.Proofs.Graph.Drawing
import ThreatTree.Proofs.Graph.Identity
import ThreatTree.Proofs.Graph.Label
import ThreatTree.Proofs.Graph.Reference
import ThreatTree.Proofs.Graph.Styling
import ThreatTree.Proofs.Graph.Walk
import ThreatTree.Proofs.Location.Block
import ThreatTree.Proofs.Location.Bracketed
import ThreatTree.Proofs.Location.Edit
import ThreatTree.Proofs.Location.Entry
import ThreatTree.Proofs.Location.Header
import ThreatTree.Proofs.Location.HeaderList
import ThreatTree.Proofs.Location.HeaderRule
import ThreatTree.Proofs.Location.Index
import ThreatTree.Proofs.Location.Line
import ThreatTree.Proofs.Location.LineEnd
import ThreatTree.Proofs.Location.Listing
import ThreatTree.Proofs.Location.Moved
import ThreatTree.Proofs.Location.Offsets
import ThreatTree.Proofs.Location.Outline
import ThreatTree.Proofs.Location.Overlap
import ThreatTree.Proofs.Location.Partition
import ThreatTree.Proofs.Location.Reference
import ThreatTree.Proofs.Location.Section
import ThreatTree.Proofs.Location.Selection
import ThreatTree.Proofs.Location.Span
import ThreatTree.Proofs.Location.Title
import ThreatTree.Proofs.Location.Written
import ThreatTree.Proofs.Page.Escape
import ThreatTree.Proofs.Page.Json
import ThreatTree.Proofs.Page.LineEnd
import ThreatTree.Proofs.Page.Safety
import ThreatTree.Proofs.Page.Script
import ThreatTree.Proofs.Page.Selection
import ThreatTree.Proofs.Session.Burst
import ThreatTree.Proofs.Session.Cycle
import ThreatTree.Proofs.Session.History
import ThreatTree.Proofs.Session.Navigation
import ThreatTree.Proofs.Session.Recovery
import ThreatTree.Proofs.Session.Report
import ThreatTree.Proofs.Session.Stage
import ThreatTree.Proofs.Session.Theme
import ThreatTree.Proofs.Settings.Layers
import ThreatTree.Proofs.Settings.Report
import ThreatTree.Proofs.Text.LineEnd
import ThreatTree.Proofs.Text.Pieces
import ThreatTree.Proofs.Text.Units
import ThreatTree.Proofs.Value.Literal
import ThreatTree.Record.Checked
import ThreatTree.Record.Field
import ThreatTree.Session
import ThreatTree.Settings
import ThreatTree.Text.Blank
import ThreatTree.Text.Lines
import ThreatTree.Text.Plain
import ThreatTree.Text.Printable
import ThreatTree.Text.Surrogate
import ThreatTree.Text.Units
import ThreatTree.Text.Word
import ThreatTree.Theme.Basic
import ThreatTree.Theme.Builtin
import ThreatTree.Theme.Registry
import ThreatTree.Value.Basic
import ThreatTree.Value.Calendar
import ThreatTree.Value.Literal
import ThreatTree.Yaml.Block
import ThreatTree.Yaml.Cursor
import ThreatTree.Yaml.Filling
import ThreatTree.Yaml.Lexer
import ThreatTree.Yaml.Load
import ThreatTree.Yaml.Merge
import ThreatTree.Yaml.Node
import ThreatTree.Yaml.Plain
import ThreatTree.Yaml.Property
import ThreatTree.Yaml.Quoted
import ThreatTree.Yaml.Scalar
import ThreatTree.Yaml.Tag
import ThreatTree.Yaml.Token
import ThreatTree.Yaml.Writing
