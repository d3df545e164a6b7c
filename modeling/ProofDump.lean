import ProofDump.Ast.Extract
import ProofDump.Dataset.Build
import ProofDump.Flat.Searches
import ProofDump.Indexing
import ProofDump.Key
import ProofDump.Loaded.Choice
import ProofDump.Loaded.File
import ProofDump.Loaded.Parts
import ProofDump.Main
import ProofDump.Records.Compare
import ProofDump.Steps.Export
import ProofDump.Theorem.Searches
import ProofDump.Proofs.InfoTree.Forest
import ProofDump.Proofs.Except
import ProofDump.Proofs.InfoTree.Steps
import ProofDump.Proofs.Theorem.Extract
import ProofDump.Proofs.Theorem.Roots
import ProofDump.Proofs.Text.Parts
import ProofDump.Proofs.Ast.FullName
import ProofDump.Proofs.Ast.Scopes
import ProofDump.Proofs.Ast.Records
import ProofDump.Proofs.Text.Lines
import ProofDump.Proofs.Json.Line
import ProofDump.Proofs.Steps.Export
import ProofDump.Proofs.Steps.Extract
import ProofDump.Proofs.Steps.Listed
import ProofDump.Proofs.Steps.Editions
import ProofDump.Proofs.Sorting
import ProofDump.Proofs.RangeOrder
import ProofDump.Proofs.Dataset.LineStates
import ProofDump.Proofs.Dataset.Walk
import ProofDump.Proofs.Dataset.Entries
import ProofDump.Proofs.Dataset.Layouts
import ProofDump.Proofs.Dataset.Preorder
import ProofDump.Proofs.Text.Halves
import ProofDump.Proofs.Json.Text
import ProofDump.Proofs.Records.Table
import ProofDump.Proofs.Records.Written
import ProofDump.Proofs.Records.Compare
import ProofDump.Proofs.Records.Report
import ProofDump.Proofs.InfoTree.Roots
import ProofDump.Proofs.FileTree.Walk
import ProofDump.Proofs.Project.Hidden
import ProofDump.Proofs.InfoTree.Typed
import ProofDump.Proofs.FileTree.Follow
import ProofDump.Proofs.FileTree.Write
import ProofDump.Proofs.Path
import ProofDump.Proofs.Project.Sources
import ProofDump.Proofs.Json.Value
import ProofDump.Proofs.Theorem.Data
import ProofDump.Proofs.Theorem.Counts
import ProofDump.Proofs.Position
import ProofDump.Proofs.Value
import ProofDump.Proofs.Text.Search
import ProofDump.Proofs.Flat.Shape
import ProofDump.Proofs.Flat.Data
import ProofDump.Proofs.Flat.Offsets
import ProofDump.Proofs.Flat.Declaration
import ProofDump.Proofs.Flat.Lines
import ProofDump.Proofs.Flat.Copy
import ProofDump.Proofs.FileTree.Seek
import ProofDump.Proofs.FileTree.Spelling
import ProofDump.Proofs.Project.Search
import ProofDump.Proofs.Loaded.Choice
import ProofDump.Proofs.Name
import ProofDump.Proofs.Project.Exclusion
import ProofDump.Proofs.Project.Finished
import ProofDump.Proofs.Ast.Ranges
import ProofDump.Proofs.Text.Blank
import ProofDump.Proofs.Theorem.ProofText
import ProofDump.Proofs.Text.Bytes
import ProofDump.Proofs.Text.Utf8
import ProofDump.Proofs.Content
import ProofDump.Proofs.Theorem.SourceText
import ProofDump.Proofs.Theorem.Split
import ProofDump.Proofs.InfoTree.Coverage
import ProofDump.Proofs.InfoTree.LeftOut
import ProofDump.Proofs.InfoTree.Terms
import ProofDump.Proofs.Theorem.StandIn
import ProofDump.Proofs.Ast.Clean
import ProofDump.Proofs.Ast.Comments
import ProofDump.Proofs.Ast.Commented
import ProofDump.Proofs.Ast.TermProofs
import ProofDump.Proofs.Json.Bounds
import ProofDump.Proofs.Flat.Stages
import ProofDump.Proofs.Toolchain
import ProofDump.Proofs.Key
import ProofDump.Proofs.InfoTree.Search
import ProofDump.Proofs.Ast.Positions
