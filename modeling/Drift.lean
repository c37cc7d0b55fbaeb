import Drift.Check.Contracts
import Drift.Check.Endpoints
import Drift.Check.Expectations
import Drift.Check.Files
import Drift.Check.Modules
import Drift.Check.Signatures
import Drift.Code
import Drift.CommandLine.Command
import Drift.CommandLine.Request
import Drift.CommandLine.Run
import Drift.Decimal.Binary
import Drift.Decimal.Layout
import Drift.Decimal.Nearest
import Drift.Decimal.Power
import Drift.Decimal.Rounded
import Drift.Decimal.Shortest
import Drift.Document.Failure
import Drift.Document.Load
import Drift.Document.OpenApi
import Drift.Document.Outline
import Drift.Documentation
import Drift.Endpoint
import Drift.Failure
import Drift.Files.Edit
import Drift.Files.Glob
import Drift.Files.NamePattern
import Drift.Files.Path
import Drift.Files.Reading
import Drift.Files.Tree
import Drift.Files.Walk
import Drift.Finding
import Drift.Foundation
import Drift.Inspection
import Drift.Journal
import Drift.Journal.Event
import Drift.Journal.Logged
import Drift.Journal.Template
import Drift.Json.Data
import Drift.Json.KeyOrder
import Drift.Json.Pretty
import Drift.Json.Text
import Drift.Language
import Drift.Main
import Drift.Proofs.Check.Conformance
import Drift.Proofs.Check.Difference
import Drift.Proofs.Check.Endpoints
import Drift.Proofs.Check.Grades
import Drift.Proofs.Check.Modules
import Drift.Proofs.Check.Qualifiers
import Drift.Proofs.Check.Types
import Drift.Proofs.Check.Weakening
import Drift.Proofs.Code
import Drift.Proofs.Code.Dispatch
import Drift.Proofs.CommandLine
import Drift.Proofs.Detection.Calls
import Drift.Proofs.Detection.Comparison
import Drift.Proofs.Detection.Declared
import Drift.Proofs.Detection.Methods
import Drift.Proofs.Detection.Reading
import Drift.Proofs.Document.Examples
import Drift.Proofs.Document.Fences
import Drift.Proofs.Document.Loaders
import Drift.Proofs.Document.OpenApi
import Drift.Proofs.Document.OpenApi.Bodies
import Drift.Proofs.Document.OpenApi.Inheritance
import Drift.Proofs.Document.OpenApi.Parameters
import Drift.Proofs.Document.OpenApi.Rearranged
import Drift.Proofs.Document.OpenApi.Schemas
import Drift.Proofs.Document.Outline
import Drift.Proofs.Document.Sections
import Drift.Proofs.Documentation
import Drift.Proofs.Files.Paths
import Drift.Proofs.Files.Revision
import Drift.Proofs.Files.Walk
import Drift.Proofs.Inspection
import Drift.Proofs.Inspection.Stages
import Drift.Proofs.Json.Failures
import Drift.Proofs.Json.Reordered
import Drift.Proofs.Outcome
import Drift.Proofs.Recognizer.Allowed
import Drift.Proofs.Recognizer.Found
import Drift.Proofs.Recognizer.Names
import Drift.Proofs.Recognizer.Parted
import Drift.Proofs.Recognizer.Preferred
import Drift.Proofs.Recognizer.Readings
import Drift.Proofs.Recognizer.Repeated
import Drift.Proofs.Recognizer.Replace
import Drift.Proofs.Report.Sections
import Drift.Proofs.Report.Terminal
import Drift.Proofs.Route.Canonical
import Drift.Proofs.Route.Joined
import Drift.Proofs.Route.Pairing
import Drift.Proofs.Route.Segments
import Drift.Proofs.Route.Templates
import Drift.Proofs.Run
import Drift.Proofs.Source.Brackets
import Drift.Proofs.Source.CSharp
import Drift.Proofs.Source.CSharp.Declarations
import Drift.Proofs.Source.CSharp.Parameters
import Drift.Proofs.Source.CSharp.Routing
import Drift.Proofs.Source.Closed
import Drift.Proofs.Source.Enclosed
import Drift.Proofs.Source.Go
import Drift.Proofs.Source.Go.Bodies
import Drift.Proofs.Source.Go.Declarations
import Drift.Proofs.Source.Go.Head
import Drift.Proofs.Source.Go.Results
import Drift.Proofs.Source.Handler
import Drift.Proofs.Source.Java
import Drift.Proofs.Source.Java.Annotations
import Drift.Proofs.Source.Java.Declarations
import Drift.Proofs.Source.Java.Marks
import Drift.Proofs.Source.Java.Parameters
import Drift.Proofs.Source.Java.RequestMapping
import Drift.Proofs.Source.Java.Routing
import Drift.Proofs.Source.JavaScript
import Drift.Proofs.Source.JavaScript.Endings
import Drift.Proofs.Source.JavaScript.Forms
import Drift.Proofs.Source.Literals
import Drift.Proofs.Source.MethodHead
import Drift.Proofs.Source.Nearest
import Drift.Proofs.Source.Nesting
import Drift.Proofs.Source.Parts
import Drift.Proofs.Source.Python
import Drift.Proofs.Source.Python.Definitions
import Drift.Proofs.Source.Python.Routing
import Drift.Proofs.Source.Ruby
import Drift.Proofs.Source.Ruby.Sections
import Drift.Proofs.Source.Scan
import Drift.Proofs.Source.Types
import Drift.Proofs.Source.Visibility
import Drift.Proofs.Text.Case
import Drift.Proofs.Text.Characters
import Drift.Proofs.Text.Joining
import Drift.Proofs.Text.Words
import Drift.Proofs.Yaml.Nodes
import Drift.Proofs.Yaml.Scalars
import Drift.Proofs.Yaml.Tokens
import Drift.Proofs.Yaml.Values
import Drift.Recognizer.Basic
import Drift.Recognizer.Search
import Drift.Recognizer.Source
import Drift.Record.Basic
import Drift.Record.Readers
import Drift.Report.Data
import Drift.Report.Terminal
import Drift.Report.Text
import Drift.Route.Pairing
import Drift.Route.Path
import Drift.Settings
import Drift.Settings.Load
import Drift.Signature
import Drift.Source.CSharp
import Drift.Source.Extract
import Drift.Source.Go
import Drift.Source.Handler
import Drift.Source.Java
import Drift.Source.JavaScript
import Drift.Source.Nesting
import Drift.Source.Python
import Drift.Source.Ruby
import Drift.Source.Scan
import Drift.Text.Blank
import Drift.Text.Case
import Drift.Text.Case.Tables
import Drift.Text.DecimalDigit
import Drift.Text.Lines
import Drift.Text.Number
import Drift.Text.Printable
import Drift.Text.Quoted
import Drift.Text.Ranges
import Drift.Text.Similar
import Drift.Text.Split
import Drift.Text.Trim
import Drift.Text.Utf8
import Drift.Text.Word
import Drift.Value.Basic
import Drift.Value.Key
import Drift.Value.Text
import Drift.Value.Time
import Drift.Yaml.Load
import Drift.Yaml.Node
import Drift.Yaml.Scalar
import Drift.Yaml.Tag
import Drift.Yaml.Token.Basic
import Drift.Yaml.Token.Block
import Drift.Yaml.Token.Layout
import Drift.Yaml.Token.Names
import Drift.Yaml.Token.Place
import Drift.Yaml.Token.Plain
import Drift.Yaml.Token.Quoted
