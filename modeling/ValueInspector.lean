import ValueInspector.Decimal.Shortest
import ValueInspector.Error
import ValueInspector.Helper.Run
import ValueInspector.Implementation
import ValueInspector.Inspector
import ValueInspector.Json.Basic
import ValueInspector.Json.Fault
import ValueInspector.Json.Lexer
import ValueInspector.Json.Parse
import ValueInspector.Json.Record
import ValueInspector.Json.Render
import ValueInspector.Json.Skip
import ValueInspector.Memory
import ValueInspector.Name
import ValueInspector.Node.Basic
import ValueInspector.Node.Json
import ValueInspector.Node.Text
import ValueInspector.Options.Basic
import ValueInspector.Options.Json
import ValueInspector.Oracle
import ValueInspector.Printer
import ValueInspector.Proofs.Inspector.Budgets
import ValueInspector.Proofs.Inspector.Composition
import ValueInspector.Proofs.Inspector.Display
import ValueInspector.Proofs.Inspector.Outline
import ValueInspector.Proofs.Inspector.Pruning
import ValueInspector.Proofs.Inspector.Trail
import ValueInspector.Proofs.Memory.History
import ValueInspector.Proofs.Memory.Regions
import ValueInspector.Proofs.Memory.Search
import ValueInspector.Proofs.Query.Outcomes
import ValueInspector.Proofs.Resolver.Cache
import ValueInspector.Proxy
import ValueInspector.Query
import ValueInspector.Registry
import ValueInspector.Resolver
import ValueInspector.Shell.Arithmetic
import ValueInspector.Shell.Builtin
import ValueInspector.Shell.Bytes
import ValueInspector.Shell.Calendar
import ValueInspector.Shell.Calendar.Reader
import ValueInspector.Shell.Catalog
import ValueInspector.Shell.Condition
import ValueInspector.Shell.Digest
import ValueInspector.Shell.Evaluation
import ValueInspector.Shell.Expansion
import ValueInspector.Shell.Files
import ValueInspector.Shell.Format
import ValueInspector.Shell.Launch
import ValueInspector.Shell.Lifetime
import ValueInspector.Shell.Limit
import ValueInspector.Shell.Number
import ValueInspector.Shell.OrderedRegex
import ValueInspector.Shell.OrderedRegex.Reader
import ValueInspector.Shell.Parser
import ValueInspector.Shell.Pattern
import ValueInspector.Shell.Permissions
import ValueInspector.Shell.Redirect
import ValueInspector.Shell.Regex
import ValueInspector.Shell.Regex.Reader
import ValueInspector.Shell.Script
import ValueInspector.Shell.Signal
import ValueInspector.Shell.Startup
import ValueInspector.Shell.State
import ValueInspector.Shell.System
import ValueInspector.Shell.Utility.Arguments
import ValueInspector.Shell.Utility.Basic
import ValueInspector.Shell.Utility.Checksum
import ValueInspector.Shell.Utility.Clock
import ValueInspector.Shell.Utility.Columns
import ValueInspector.Shell.Utility.Dump
import ValueInspector.Shell.Utility.Edit.Reader
import ValueInspector.Shell.Utility.Edit.Run
import ValueInspector.Shell.Utility.Edit.Script
import ValueInspector.Shell.Utility.Encoding
import ValueInspector.Shell.Utility.Expression
import ValueInspector.Shell.Utility.Factor
import ValueInspector.Shell.Utility.File
import ValueInspector.Shell.Utility.Order
import ValueInspector.Shell.Utility.Path
import ValueInspector.Shell.Utility.Print
import ValueInspector.Shell.Utility.Process
import ValueInspector.Shell.Utility.Records.Division
import ValueInspector.Shell.Utility.Records.Elements
import ValueInspector.Shell.Utility.Records.Machine
import ValueInspector.Shell.Utility.Records.Pattern
import ValueInspector.Shell.Utility.Records.Reader
import ValueInspector.Shell.Utility.Records.Run
import ValueInspector.Shell.Utility.Records.Script
import ValueInspector.Shell.Utility.Records.Token
import ValueInspector.Shell.Utility.Records.Value
import ValueInspector.Shell.Utility.Search
import ValueInspector.Shell.Utility.Sequence
import ValueInspector.Shell.Utility.Test
import ValueInspector.Shell.Utility.Text
import ValueInspector.Shell.Utility.Translate
import ValueInspector.Snapshot.Basic
import ValueInspector.Snapshot.Builder
import ValueInspector.Snapshot.Cursor
import ValueInspector.Snapshot.Layout
import ValueInspector.Snapshot.Reading
import ValueInspector.Text.Blank
import ValueInspector.Text.Numeral
import ValueInspector.Text.Utf8
import ValueInspector.TypeDesc
import ValueInspector.Union.Alternatives
import ValueInspector.Union.Decode
import ValueInspector.Proofs.Memory.LastAddress
import ValueInspector.Proofs.Resolver.Calls
import ValueInspector.Proofs.Snapshot.Construction
import ValueInspector.Proofs.Snapshot.TypeTable
import ValueInspector.Proofs.Snapshot.Spelling
import ValueInspector.Proofs.Resolver.Order
import ValueInspector.Proofs.Query.Resolutions
import ValueInspector.Proofs.Inspector.Consultations
import ValueInspector.Proofs.Snapshot.Reading
import ValueInspector.Proofs.Union.Decoding
import ValueInspector.Proofs.Inspector.Links
import ValueInspector.Proofs.Inspector.Endings
import ValueInspector.Proofs.Inspector.Members
import ValueInspector.Proofs.Inspector.Shape
import ValueInspector.Proofs.Memory.MapOrder
import ValueInspector.Proofs.Node.Json
import ValueInspector.Proofs.Inspector.Texts
import ValueInspector.Proofs.Inspector.Root
import ValueInspector.Proofs.Inspector.DepthMarks
import ValueInspector.Proofs.Inspector.Cycles
import ValueInspector.Proofs.Inspector.ChildrenBudget
import ValueInspector.Proofs.Registry.Registration
import ValueInspector.Proofs.Printer.Unions
import ValueInspector.Proofs.Inspector.Unions
import ValueInspector.Proofs.Proxy.Decoding
import ValueInspector.Proofs.Text.SingleLine
import ValueInspector.Proofs.Text.Utf8
import ValueInspector.Proofs.Implementation.Unwrapping
import ValueInspector.Proofs.Snapshot.SingleLine
import ValueInspector.Proofs.Node.Lines
import ValueInspector.Proofs.Printer.SingleLine
import ValueInspector.Proofs.Inspector.Lines
import ValueInspector.Proofs.Text.Encoding
import ValueInspector.Proofs.Memory.Contents
import ValueInspector.Proofs.Snapshot.Texts
import ValueInspector.Proofs.Snapshot.Words
import ValueInspector.Proofs.Implementation.Outcomes
import ValueInspector.Proofs.Printer.NamedObjects
import ValueInspector.Proofs.Text.Hexadecimal
import ValueInspector.Proofs.Snapshot.Integers
import ValueInspector.Proofs.Snapshot.Failures
import ValueInspector.Proofs.Snapshot.Grammar
import ValueInspector.Proofs.Resolver.Fixpoint
import ValueInspector.Proofs.Resolver.Quotes
import ValueInspector.Proofs.Text.Trimming
import ValueInspector.Proofs.Registry.Qualifiers
import ValueInspector.Proofs.Registry.History
import ValueInspector.Proofs.Json.Grammar
import ValueInspector.Proofs.Json.Lexing
import ValueInspector.Proofs.Json.Numerals
import ValueInspector.Proofs.Json.Skipping
import ValueInspector.Proofs.Json.Readers
import ValueInspector.Proofs.Json.Records
import ValueInspector.Proofs.Json.Rendering
import ValueInspector.Proofs.Options.Partial
import ValueInspector.Proofs.Options.Overlay
import ValueInspector.Proofs.Options.RoundTrip
import ValueInspector.Proofs.Memory.Positions
import ValueInspector.Proofs.Text.Lines
import ValueInspector.Proofs.Node.Blocks
import ValueInspector.Proofs.Node.Paths
import ValueInspector.Proofs.Text.Decoding
import ValueInspector.Proofs.Helper.Runs
import ValueInspector.Proofs.Proxy.Dereference
