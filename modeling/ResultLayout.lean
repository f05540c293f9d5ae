import ResultLayout.Command.Arguments
import ResultLayout.Command.Compile
import ResultLayout.Command.Help
import ResultLayout.Command.Log
import ResultLayout.Command.Run
import ResultLayout.Compile.Json
import ResultLayout.Compile.Operation
import ResultLayout.Compile.ResultType
import ResultLayout.Decimal.Binary64
import ResultLayout.Decimal.Shortest
import ResultLayout.Descriptor
import ResultLayout.Document.Basic
import ResultLayout.Document.Format
import ResultLayout.Document.Location
import ResultLayout.Document.OperationKind
import ResultLayout.Document.Selection
import ResultLayout.Document.TypeDeclaration
import ResultLayout.Files.Load
import ResultLayout.Files.Tree
import ResultLayout.Files.Walk
import ResultLayout.FirstSeen
import ResultLayout.Fragments.Cycle
import ResultLayout.Fragments.Registry
import ResultLayout.Json.Depth
import ResultLayout.Json.Fault
import ResultLayout.Json.Number
import ResultLayout.Json.Reader
import ResultLayout.Json.Record
import ResultLayout.Json.Scan
import ResultLayout.Json.Skip
import ResultLayout.Json.Value
import ResultLayout.Layout.Contribution
import ResultLayout.Layout.Error
import ResultLayout.Layout.Record
import ResultLayout.Layout.Selected
import ResultLayout.Layout.Size
import ResultLayout.Main
import ResultLayout.Naming.Allocator
import ResultLayout.Naming.Capitalize
import ResultLayout.Naming.OperationName
import ResultLayout.Proofs.Command.Accounting
import ResultLayout.Proofs.Command.Tasks
import ResultLayout.Proofs.Compile.Batch
import ResultLayout.Proofs.Compile.Names
import ResultLayout.Proofs.Compile.Reached
import ResultLayout.Proofs.Compile.Serialized
import ResultLayout.Proofs.Document.Defects
import ResultLayout.Proofs.Document.Loading
import ResultLayout.Proofs.Document.Texts
import ResultLayout.Proofs.Fragments.Additions
import ResultLayout.Proofs.Fragments.Backtracking
import ResultLayout.Proofs.Fragments.Cycles
import ResultLayout.Proofs.Fragments.Reports
import ResultLayout.Proofs.Fragments.Rotation
import ResultLayout.Proofs.Fragments.Safety
import ResultLayout.Proofs.Fragments.Search
import ResultLayout.Proofs.Fragments.Undefined
import ResultLayout.Proofs.Json.Accepted
import ResultLayout.Proofs.Json.Defects
import ResultLayout.Proofs.Json.Determined
import ResultLayout.Proofs.Json.Grammar
import ResultLayout.Proofs.Json.Members
import ResultLayout.Proofs.Json.Places
import ResultLayout.Proofs.Json.Reading
import ResultLayout.Proofs.Json.Records
import ResultLayout.Proofs.Json.Same
import ResultLayout.Proofs.Json.Scanning
import ResultLayout.Proofs.Json.Skipping
import ResultLayout.Proofs.Json.Unambiguous
import ResultLayout.Proofs.Layout.Attribution
import ResultLayout.Proofs.Layout.Bounded
import ResultLayout.Proofs.Layout.Correspondence
import ResultLayout.Proofs.Layout.Description
import ResultLayout.Proofs.Layout.FragmentRefs
import ResultLayout.Proofs.Layout.Grouping
import ResultLayout.Proofs.Layout.Height
import ResultLayout.Proofs.Layout.Induction
import ResultLayout.Proofs.Layout.Inlining
import ResultLayout.Proofs.Layout.Level
import ResultLayout.Proofs.Layout.Names
import ResultLayout.Proofs.Layout.Narrowing
import ResultLayout.Proofs.Layout.Paths
import ResultLayout.Proofs.Layout.Preorder
import ResultLayout.Proofs.Layout.Presence
import ResultLayout.Proofs.Layout.Reordering
import ResultLayout.Proofs.Layout.Repeats
import ResultLayout.Proofs.Layout.Splitting
import ResultLayout.Proofs.Layout.Success
import ResultLayout.Proofs.Layout.Tree
import ResultLayout.Proofs.Layout.Visits
import ResultLayout.Proofs.Layout.Walk
import ResultLayout.Proofs.Layout.WellFormed
import ResultLayout.Proofs.Layout.WriteOut
import ResultLayout.Proofs.Naming.Canonical
import ResultLayout.Proofs.Naming.Fresh
import ResultLayout.Proofs.Naming.Idempotence
import ResultLayout.Proofs.Naming.Runs
import ResultLayout.Proofs.Schema.Brackets
import ResultLayout.Proofs.Schema.TypeGrammar
import ResultLayout.Proofs.Schema.TypeRendering
import ResultLayout.Proofs.Text.Trim
import ResultLayout.Proofs.Text.UpperCase
import ResultLayout.Schema.Leaf
import ResultLayout.Schema.TypeRef
import ResultLayout.Settings.Basic
import ResultLayout.Settings.Format
import ResultLayout.Text.Blank
import ResultLayout.Text.CodeRanges
import ResultLayout.Text.Lowercase
import ResultLayout.Text.Quoted
import ResultLayout.Text.Terminal
import ResultLayout.Text.Unshown
import ResultLayout.Text.Uppercase
