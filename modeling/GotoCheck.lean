import GotoCheck.Binary64
import GotoCheck.CType
import GotoCheck.Decimal
import GotoCheck.Directory
import GotoCheck.Expr
import GotoCheck.Expr.Text
import GotoCheck.Expr.Value
import GotoCheck.FixedPoint
import GotoCheck.Format.Directive
import GotoCheck.Format.Output
import GotoCheck.Format.Real
import GotoCheck.FunctionTable
import GotoCheck.Induction.Checker
import GotoCheck.Induction.Config
import GotoCheck.Induction.Parallel
import GotoCheck.Induction.Record
import GotoCheck.Induction.Schedule
import GotoCheck.Induction.Search
import GotoCheck.Instruction
import GotoCheck.Location
import GotoCheck.Loop.Extract
import GotoCheck.Loop.Modified
import GotoCheck.NameMap
import GotoCheck.Path
import GotoCheck.Program
import GotoCheck.Program.Copy
import GotoCheck.Program.Listing
import GotoCheck.Program.Numbering
import GotoCheck.Samples
import GotoCheck.Source.Extent
import GotoCheck.Source.Token
import GotoCheck.Symbol
import GotoCheck.SymbolName
import GotoCheck.Text.Blank
import GotoCheck.Text.CodePoints
import GotoCheck.Text.Invisible
import GotoCheck.Text.Letters
import GotoCheck.Text.Lines
import GotoCheck.Text.Occurrence
import GotoCheck.Text.Quoted
import GotoCheck.Text.Utf8
import GotoCheck.Trace
import GotoCheck.Trace.Record
import GotoCheck.Trace.Report
import GotoCheck.Witness
import GotoCheck.Witness.Assumption
import GotoCheck.Witness.Generator
import GotoCheck.Workspace
import GotoCheck.Xml
import GotoCheck.Proofs.Parallel.Evidence
import GotoCheck.Proofs.Parallel.Invariant
import GotoCheck.Proofs.Parallel.Soundness
import GotoCheck.Proofs.Parallel.Asked
import GotoCheck.Proofs.Parallel.BaseError
import GotoCheck.Proofs.CalledCode
import GotoCheck.Proofs.ModifiedWalk
import GotoCheck.Proofs.Extract
import GotoCheck.Proofs.WalkMoves
import GotoCheck.Proofs.LoopSearch
import GotoCheck.Proofs.LoopSlice
import GotoCheck.Proofs.LoopVariables
import GotoCheck.Proofs.Workspace
import GotoCheck.Proofs.LoopControl
import GotoCheck.Proofs.Text.Lines
import GotoCheck.Proofs.RecordBlocks
import GotoCheck.Proofs.RecordReader
import GotoCheck.Proofs.RecordText
import GotoCheck.Proofs.Transfer
import GotoCheck.Proofs.History
import GotoCheck.Proofs.Copy
import GotoCheck.Proofs.BackEdges
import GotoCheck.Proofs.LoopHeads
import GotoCheck.Proofs.Arena.Tables
import GotoCheck.Proofs.Arena.Layout
import GotoCheck.Proofs.Arena.Passes
import GotoCheck.Proofs.Arena.Moves
import GotoCheck.Proofs.Arena.Refinement
import GotoCheck.Proofs.Arena.Consistent
import GotoCheck.Proofs.Arena.Effects
import GotoCheck.Proofs.Arena.Commands
import GotoCheck.Proofs.GivenHandles
import GotoCheck.Proofs.Handles
import GotoCheck.Proofs.LoopExits
import GotoCheck.Proofs.Parallel.Coverage
import GotoCheck.Proofs.Parallel.Exhaustion
import GotoCheck.Proofs.Search
import GotoCheck.Proofs.Parallel.Agreement
import GotoCheck.Proofs.Source.Gap
import GotoCheck.Proofs.Source.Extent
import GotoCheck.Proofs.Source.Cover
import GotoCheck.Proofs.Source.Lines
import GotoCheck.Proofs.Source.Segments
import GotoCheck.Proofs.Source.Snippet
import GotoCheck.Proofs.Source.Directive
import GotoCheck.Proofs.Source.Returned
import GotoCheck.Proofs.Source.LineEnds
import GotoCheck.Proofs.Witness.Cache
import GotoCheck.Proofs.Witness.Shape
import GotoCheck.Proofs.Expr.TypeText
import GotoCheck.Proofs.Expr.Readable
import GotoCheck.Proofs.Expr.Reader
import GotoCheck.Proofs.Expr.Unambiguous
import GotoCheck.Proofs.Xml
import GotoCheck.Proofs.Witness.Text
import GotoCheck.Proofs.Report
import GotoCheck.Proofs.TargetNumbers
import GotoCheck.Proofs.Listing
import GotoCheck.Proofs.TableNumbers
import GotoCheck.Proofs.LoopNumbers
import GotoCheck.Proofs.LoopPairs
import GotoCheck.Proofs.Append
import GotoCheck.Proofs.LoopCalls
import GotoCheck.Proofs.KInduction
import GotoCheck.Proofs.Parallel.Records
import GotoCheck.Proofs.Parallel.Workers
import GotoCheck.Proofs.Parallel.Bounds
import GotoCheck.Proofs.Witness.Ranges
import GotoCheck.Proofs.LocationOnly
import GotoCheck.Proofs.Format.Pieces
import GotoCheck.Proofs.Format.Directive
import GotoCheck.Proofs.Format.Integer
import GotoCheck.Proofs.FixedPoint
import GotoCheck.Proofs.Witness.Assumption
import GotoCheck.Proofs.Witness.Document
import GotoCheck.Proofs.Source.Lexeme
import GotoCheck.Proofs.Expr.Tokens
import GotoCheck.Proofs.Parallel.Bytes
import GotoCheck.Proofs.Parallel.Channel
import GotoCheck.Proofs.Witness.Growth
