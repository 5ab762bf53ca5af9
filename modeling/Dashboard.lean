import Dashboard.Access
import Dashboard.Analysis
import Dashboard.CommandLine.Arguments
import Dashboard.CommandLine.Command
import Dashboard.CommandLine.Help
import Dashboard.CommandLine.Run
import Dashboard.Compiler
import Dashboard.Component
import Dashboard.Config
import Dashboard.DataSource
import Dashboard.Decimal.Binary64
import Dashboard.Decimal.Numeral
import Dashboard.Decimal.Shortest
import Dashboard.Dictionary
import Dashboard.Digest
import Dashboard.Editor
import Dashboard.Failure
import Dashboard.Files.Path
import Dashboard.Files.Program
import Dashboard.Files.Task
import Dashboard.Files.Tree
import Dashboard.Generate
import Dashboard.Inputs
import Dashboard.Instant
import Dashboard.Json.Basic
import Dashboard.Json.Number
import Dashboard.Json.Printer
import Dashboard.Json.Reader
import Dashboard.Main
import Dashboard.Markup.Parser
import Dashboard.Markup.Tree
import Dashboard.Module.Instruction
import Dashboard.Module.Reader
import Dashboard.Outline
import Dashboard.ParseError
import Dashboard.Placeholder
import Dashboard.Policy
import Dashboard.Prefilter
import Dashboard.Proofs.Decimal.Rounding
import Dashboard.Proofs.Dictionary
import Dashboard.Proofs.Json.Numbers
import Dashboard.Proofs.Json.Quoting
import Dashboard.Proofs.Text
import Dashboard.Query
import Dashboard.Registry
import Dashboard.Report
import Dashboard.Sandbox
import Dashboard.Script.Lexeme
import Dashboard.Script.Literal
import Dashboard.Script.Parser
import Dashboard.Script.Token
import Dashboard.Script.Tree
import Dashboard.Store
import Dashboard.Text.Blank
import Dashboard.Text.Letter
import Dashboard.Text.Pattern
import Dashboard.Text.Position
import Dashboard.Text.Quoted
import Dashboard.Toml.Basic
import Dashboard.Toml.Printer
import Dashboard.Toml.Reader
import Dashboard.Proofs.Decimal.Shortest
import Dashboard.Proofs.Decimal.Monotone
import Dashboard.Proofs.Json.Doubles
import Dashboard.Proofs.Json.ReadBack
import Dashboard.Proofs.Json.Spread
import Dashboard.Proofs.Json.Bounds
import Dashboard.Proofs.Module.Lines
import Dashboard.Proofs.Sandbox.Running
import Dashboard.Proofs.Sandbox.Steps
import Dashboard.Proofs.Sandbox.Building
import Dashboard.Proofs.Sandbox.Confinement
import Dashboard.Proofs.Script.Lexing
import Dashboard.Proofs.Script.Places
import Dashboard.Proofs.Script.Parsing
import Dashboard.Proofs.Script.Texts
import Dashboard.Proofs.Markup.Scanning
import Dashboard.Proofs.Markup.Places
import Dashboard.Proofs.Markup.Progress
import Dashboard.Proofs.Markup.Reading
import Dashboard.Proofs.Markup.Inserting
import Dashboard.Proofs.Markup.Levels
import Dashboard.Proofs.Markup.Documents
import Dashboard.Proofs.Generate.Bindings
import Dashboard.Proofs.Meaning
import Dashboard.Proofs.Generate.Attributes
import Dashboard.Proofs.Generate.Modules
import Dashboard.Proofs.Generate.Loading
import Dashboard.Proofs.Compiler.Stages
import Dashboard.Proofs.Component.Passing
import Dashboard.Proofs.Generate.Refusals
import Dashboard.Proofs.Compiler.Strict
import Dashboard.Proofs.Compiler.Verdict
import Dashboard.Proofs.Compiler.Violations
import Dashboard.Proofs.Generate.Printing
import Dashboard.Proofs.Compiler.Preservation
import Dashboard.Proofs.Compiler.Imports
import Dashboard.Proofs.Generate.Elements
import Dashboard.Proofs.Generate.Texts
import Dashboard.Proofs.Compiler.Integrity
import Dashboard.Proofs.DataSource.Runs
import Dashboard.Proofs.DataSource.Sharing
import Dashboard.Proofs.Compiler.Injection
import Dashboard.Proofs.Compiler.Constants
import Dashboard.Proofs.Analysis
import Dashboard.Proofs.Compiler.Agreement
import Dashboard.Proofs.DataSource.Freshness
import Dashboard.Proofs.DataSource.Isolation
import Dashboard.Proofs.Pattern
import Dashboard.Proofs.Script.Grammar
import Dashboard.Proofs.Script.Yielding
import Dashboard.Proofs.Policy
import Dashboard.Proofs.Policy.Literals
import Dashboard.Proofs.Compiler.Bounds
import Dashboard.Proofs.Files.Tree
import Dashboard.Proofs.Files.Task
import Dashboard.Proofs.Store.Records
import Dashboard.Proofs.Store.Layout
import Dashboard.Proofs.Store.Calls
import Dashboard.Proofs.Store.Runs
import Dashboard.Proofs.Sandbox.References
import Dashboard.Proofs.Compiler.Naming
import Dashboard.Proofs.Position
import Dashboard.Proofs.Script.Standing
import Dashboard.Proofs.Markup.Standing
import Dashboard.Proofs.Markup.Taking
import Dashboard.Proofs.Markup.Identifiers
import Dashboard.Proofs.Placeholder.Braces
import Dashboard.Proofs.Placeholder.Grammar
import Dashboard.Proofs.Placeholder.Resolving
import Dashboard.Proofs.Sandbox.Exactness
import Dashboard.Proofs.Outline
import Dashboard.Proofs.Component.Forest
import Dashboard.Proofs.Script.Precedence
import Dashboard.Proofs.Script.Extent
import Dashboard.Proofs.Markup.Extent
import Dashboard.Proofs.Markup.Bracing
import Dashboard.Proofs.Generate.Offences
import Dashboard.Proofs.Compiler.Diagnostics
import Dashboard.Proofs.Query
import Dashboard.Proofs.Script.Moving
import Dashboard.Proofs.Script.Imports
import Dashboard.Proofs.Script.Partition
import Dashboard.Proofs.Markup.Faithful
import Dashboard.Proofs.Access
import Dashboard.Proofs.Prefilter
import Dashboard.Proofs.Store.Containment
import Dashboard.Proofs.CommandLine.Overrides
