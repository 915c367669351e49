import PoolEnum.Generation
import PoolEnum.Decimal.Shortest
import PoolEnum.Decimal.Style
import PoolEnum.Text.Alphanumeric
import PoolEnum.Text.ByteSlice
import PoolEnum.Text.ControlSequence
import PoolEnum.Text.Hidden
import PoolEnum.Text.Quoted
import PoolEnum.Mismatch
import PoolEnum.Table.Stop
import PoolEnum.Table.Text
import PoolEnum.Table.Number
import PoolEnum.Table.Scalar
import PoolEnum.Table.Skip
import PoolEnum.Table.Entries
import PoolEnum.Toml.Line
import PoolEnum.Toml.Document
import PoolEnum.Failure
import PoolEnum.Files.Storage
import PoolEnum.Files.Tree
import PoolEnum.Run
import PoolEnum.Command.Arguments
import PoolEnum.Command.Directive
import PoolEnum.Command.LogFilter
import PoolEnum.Command.Pattern.Flags
import PoolEnum.Command.Pattern.Atom
import PoolEnum.Command.Pattern.Set
import PoolEnum.Command.Pattern
import PoolEnum.Command.Outcome
import PoolEnum.Main
import PoolEnum.Proofs.Name.Valid
import PoolEnum.Proofs.Name.Suffix
import PoolEnum.Proofs.Name.Rewriting
import PoolEnum.Proofs.Name.Segment
import PoolEnum.Proofs.Name.Image
import PoolEnum.Proofs.Registry
import PoolEnum.Proofs.Assignment
import PoolEnum.Proofs.Order
import PoolEnum.Proofs.Generation
import PoolEnum.Proofs.Table.Grammar
import PoolEnum.Proofs.Table.Text
import PoolEnum.Proofs.Table.Number
import PoolEnum.Proofs.Table.Scalar
import PoolEnum.Proofs.Table.Skip
import PoolEnum.Proofs.Table.Members
import PoolEnum.Proofs.Table.Entries
import PoolEnum.Proofs.Claims
import PoolEnum.Proofs.Capacity
import PoolEnum.Proofs.Build
import PoolEnum.Proofs.Append
import PoolEnum.Proofs.Header
import PoolEnum.Proofs.Files.Path
import PoolEnum.Proofs.Files.Tree
import PoolEnum.Proofs.Run
import PoolEnum.Proofs.Log
import PoolEnum.Proofs.Toml.Keys
import PoolEnum.Proofs.Settings.Document
import PoolEnum.Proofs.Command.Arguments
import PoolEnum.Proofs.Command.Execution
import PoolEnum.Proofs.Reserved
import PoolEnum.Proofs.RowOrder
import PoolEnum.Proofs.Relabel
import PoolEnum.Proofs.Table.Cut.Text
import PoolEnum.Proofs.Table.Cut.Scalar
import PoolEnum.Proofs.Table.Cut.Skip
import PoolEnum.Proofs.Table.Cut.Members
import PoolEnum.Proofs.Table.Cut.Entries
import PoolEnum.Proofs.Command.Verbosity
import PoolEnum.Proofs.Toml.Item
import PoolEnum.Proofs.Toml.Document
import PoolEnum.Proofs.Settings.Lines
import PoolEnum.Proofs.Pool
import PoolEnum.Proofs.Progress
import PoolEnum.Proofs.Exhaustion
import PoolEnum.Proofs.Report
