import NeutralSchema.Batch
import NeutralSchema.Command.Action
import NeutralSchema.Command.Arguments
import NeutralSchema.Command.Check
import NeutralSchema.Command.Exec
import NeutralSchema.Command.Lower
import NeutralSchema.Command.Program
import NeutralSchema.Command.Report
import NeutralSchema.Command.Usage
import NeutralSchema.Diagnostic
import NeutralSchema.FileSystem
import NeutralSchema.Json.Basic
import NeutralSchema.Json.Decode
import NeutralSchema.Json.Literal
import NeutralSchema.Json.Number
import NeutralSchema.Json.Printer
import NeutralSchema.Json.Reader
import NeutralSchema.Json.Text
import NeutralSchema.Json.Token
import NeutralSchema.Lowering.Basic
import NeutralSchema.Lowering.DataType
import NeutralSchema.Lowering.Expression
import NeutralSchema.Lowering.File
import NeutralSchema.Lowering.Name
import NeutralSchema.Lowering.Statement
import NeutralSchema.Main
import NeutralSchema.Number.Binary64
import NeutralSchema.Number.Digits
import NeutralSchema.Number.Shortest
import NeutralSchema.OrderedMap
import NeutralSchema.OutputFormat
import NeutralSchema.Proofs.Json.Decoding
import NeutralSchema.Proofs.Json.Printed
import NeutralSchema.Proofs.Json.Yields
import NeutralSchema.Proofs.Lowering.Depth
import NeutralSchema.Proofs.Lowering.InvalidNames
import NeutralSchema.Proofs.Lowering.Rendering
import NeutralSchema.Proofs.Lowering.Reports
import NeutralSchema.Proofs.Lowering.Separation
import NeutralSchema.Proofs.Lowering.Slots
import NeutralSchema.Proofs.Lowering.Steps
import NeutralSchema.Proofs.Lowering.Translation
import NeutralSchema.Proofs.Lowering.Violations
import NeutralSchema.Proofs.Lowering.Visits
import NeutralSchema.Proofs.OrderedMap
import NeutralSchema.Proofs.Schema.Decoding
import NeutralSchema.Proofs.Schema.Plain
import NeutralSchema.Proofs.Tree.Nesting
import NeutralSchema.Schema.Basic
import NeutralSchema.Schema.Decode
import NeutralSchema.Schema.Encode
import NeutralSchema.Service.Endpoint
import NeutralSchema.Service.Exchange
import NeutralSchema.Service.Host
import NeutralSchema.Service.Message
import NeutralSchema.Service.Url
import NeutralSchema.Service.Wire
import NeutralSchema.Settings
import NeutralSchema.Span
import NeutralSchema.Span.Codec
import NeutralSchema.Text.Bytes
import NeutralSchema.Text.Folded
import NeutralSchema.Text.Hidden
import NeutralSchema.Text.Mark
import NeutralSchema.Text.Quoted
import NeutralSchema.Toml.Basic
import NeutralSchema.Toml.Definition
import NeutralSchema.Toml.Reader
import NeutralSchema.Toml.Scalar
import NeutralSchema.Toml.Text
import NeutralSchema.Tree.Basic
import NeutralSchema.Tree.Decode
import NeutralSchema.Tree.Encode
import NeutralSchema.Proofs.Lowering.Writes
import NeutralSchema.Proofs.Lowering.Essence
import NeutralSchema.Proofs.Lowering.Name
import NeutralSchema.Proofs.Schema.WellFormed
import NeutralSchema.Proofs.Lowering.WellFormed
import NeutralSchema.Proofs.Lowering.Raising
import NeutralSchema.Proofs.Lowering.Image
import NeutralSchema.Proofs.Json.Entries
import NeutralSchema.Proofs.Tree.Rewriting
import NeutralSchema.Proofs.Tree.Decoding
import NeutralSchema.Proofs.Tree.Exact
import NeutralSchema.Proofs.Json.Brackets
import NeutralSchema.Proofs.Schema.Rendered
import NeutralSchema.Proofs.Tree.Edit
import NeutralSchema.Proofs.Lowering.Edit
import NeutralSchema.Proofs.Lowering.Repair
import NeutralSchema.Proofs.Lowering.Spelling
import NeutralSchema.Proofs.Lowering.Surface
import NeutralSchema.Proofs.Tree.Relocation
import NeutralSchema.Proofs.Lowering.Relocation
import NeutralSchema.Proofs.Lowering.Locations
import NeutralSchema.Proofs.Batch
import NeutralSchema.Proofs.FileSystem
import NeutralSchema.Proofs.Command.Report
import NeutralSchema.Proofs.Command.Lower
import NeutralSchema.Proofs.Diagnostic
import NeutralSchema.Proofs.Command.Check
import NeutralSchema.Proofs.Lowering.Related
import NeutralSchema.Proofs.Lowering.Interleaving
import NeutralSchema.Proofs.Lowering.Context
import NeutralSchema.Proofs.Lowering.Occurrences
import NeutralSchema.Proofs.Lowering.Locality
import NeutralSchema.Proofs.Tree.Damage
import NeutralSchema.Proofs.Tree.Strictness
import NeutralSchema.Proofs.Lowering.SourceText
import NeutralSchema.Proofs.Service.Endpoint
import NeutralSchema.Proofs.Json.Visible
import NeutralSchema.Proofs.Service.Message
import NeutralSchema.Proofs.Service.Exchange
import NeutralSchema.Proofs.Command.Exec
import NeutralSchema.Proofs.Lowering.Collector
