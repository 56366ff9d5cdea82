import ElmSchema.CallLimit
import ElmSchema.Code.Declaration
import ElmSchema.Code.Module
import ElmSchema.Code.Type
import ElmSchema.Command.Arguments
import ElmSchema.Command.Run
import ElmSchema.Discovery
import ElmSchema.Disk.Basic
import ElmSchema.Disk.Tree
import ElmSchema.Document.Call
import ElmSchema.Document.Excerpt
import ElmSchema.Document.Fault
import ElmSchema.Document.Lexer
import ElmSchema.Document.Literal
import ElmSchema.Document.Node
import ElmSchema.Document.Parser
import ElmSchema.Document.Parser.Basic
import ElmSchema.Document.Parser.Operation
import ElmSchema.Document.Parser.TypeReference
import ElmSchema.Document.Parser.TypeSystem
import ElmSchema.Document.Parser.Value
import ElmSchema.Document.Token
import ElmSchema.Event
import ElmSchema.FileSystem
import ElmSchema.Generation
import ElmSchema.Json.Basic
import ElmSchema.Json.Reader
import ElmSchema.Json.Shown
import ElmSchema.Main
import ElmSchema.Name.Case
import ElmSchema.Name.Words
import ElmSchema.Number.Fraction
import ElmSchema.Number.Rounding
import ElmSchema.Number.Shortest
import ElmSchema.Output.Check
import ElmSchema.Output.Writer
import ElmSchema.Path
import ElmSchema.Proofs.Code.Balance
import ElmSchema.Proofs.Code.CaseExpression
import ElmSchema.Proofs.Code.Constructors
import ElmSchema.Proofs.Code.Determined
import ElmSchema.Proofs.Code.Enum
import ElmSchema.Proofs.Code.Identifiers
import ElmSchema.Proofs.Code.Lines
import ElmSchema.Proofs.Code.Marks
import ElmSchema.Proofs.Code.Reading
import ElmSchema.Proofs.Code.Record
import ElmSchema.Proofs.Code.References
import ElmSchema.Proofs.Code.Typing
import ElmSchema.Proofs.Command.Acceptance
import ElmSchema.Proofs.Command.Attempt
import ElmSchema.Proofs.Command.Batch
import ElmSchema.Proofs.Command.Delivery
import ElmSchema.Proofs.Discovery
import ElmSchema.Proofs.Disk.Depth
import ElmSchema.Proofs.Disk.Directories
import ElmSchema.Proofs.Disk.Recording
import ElmSchema.Proofs.Disk.Run
import ElmSchema.Proofs.Disk.Sorted
import ElmSchema.Proofs.Disk.Success
import ElmSchema.Proofs.Disk.Tree
import ElmSchema.Proofs.Document.Lexing
import ElmSchema.Proofs.Document.Name
import ElmSchema.Proofs.Document.Naming
import ElmSchema.Proofs.Document.Parsing
import ElmSchema.Proofs.Name.Alphabet
import ElmSchema.Proofs.Name.Boundaries
import ElmSchema.Proofs.Name.Letters
import ElmSchema.Proofs.Name.Respelling
import ElmSchema.Proofs.Name.Styles
import ElmSchema.Proofs.Output.Atomic
import ElmSchema.Proofs.Output.Destination
import ElmSchema.Proofs.Output.Modes
import ElmSchema.Proofs.Output.Temporary
import ElmSchema.Proofs.Path
import ElmSchema.Proofs.Schema.Analysis
import ElmSchema.Proofs.Schema.Collisions
import ElmSchema.Proofs.Schema.Entry
import ElmSchema.Proofs.Schema.Names
import ElmSchema.Proofs.Schema.Printed
import ElmSchema.Proofs.Schema.Resolution
import ElmSchema.Proofs.Schema.TypeChain
import ElmSchema.Proofs.Schema.Warnings
import ElmSchema.Proofs.Settings
import ElmSchema.Proofs.Text.Lines
import ElmSchema.Proofs.Text.Loose
import ElmSchema.Schema.Basic
import ElmSchema.Schema.Extraction
import ElmSchema.Schema.FieldType
import ElmSchema.Settings
import ElmSchema.Text.Blank
import ElmSchema.Text.ControlSequence
import ElmSchema.Text.Hex
import ElmSchema.Text.Line
import ElmSchema.Text.Loose
import ElmSchema.Text.Printable
import ElmSchema.Text.Quoted
import ElmSchema.Text.Utf8
