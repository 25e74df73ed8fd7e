import BuildGraph.CommandLine
import BuildGraph.Decimal.Shortest
import BuildGraph.DeclaredMap
import BuildGraph.Dependency
import BuildGraph.Dependency.Json
import BuildGraph.DepthFirst
import BuildGraph.DepthFirst.Table
import BuildGraph.FileStore
import BuildGraph.Json.Collection
import BuildGraph.Json.Content
import BuildGraph.Json.Error
import BuildGraph.Json.Fields
import BuildGraph.Json.Node
import BuildGraph.Json.Number
import BuildGraph.Json.Reader
import BuildGraph.Json.Token
import BuildGraph.Json.Value
import BuildGraph.Ledger
import BuildGraph.Ledger.Json
import BuildGraph.Main
import BuildGraph.Pass
import BuildGraph.Pass.Json
import BuildGraph.Pass.Standard
import BuildGraph.PassError
import BuildGraph.Path
import BuildGraph.Pipeline
import BuildGraph.Program
import BuildGraph.Reachable
import BuildGraph.Scheduling
import BuildGraph.Selection
import BuildGraph.Settings
import BuildGraph.SortedMap
import BuildGraph.SortedSet
import BuildGraph.Stage
import BuildGraph.Substitution
import BuildGraph.Target
import BuildGraph.Target.Json
import BuildGraph.Text
import BuildGraph.Wiring
import BuildGraph.Workspace
import BuildGraph.Workspace.Digest
import BuildGraph.Workspace.Json
import BuildGraph.Workspace.OwnedTarget
import BuildGraph.Workspace.Query
import BuildGraph.Proofs.Collections
import BuildGraph.Proofs.Collections.Reordering
import BuildGraph.Proofs.DepthFirst
import BuildGraph.Proofs.Identity
import BuildGraph.Proofs.Outline
import BuildGraph.Proofs.Closure
import BuildGraph.Proofs.Run
import BuildGraph.Proofs.Scheduling
import BuildGraph.Proofs.Trace
import BuildGraph.Proofs.Liveness
import BuildGraph.Proofs.Wiring
import BuildGraph.Proofs.Focus
import BuildGraph.Proofs.Sources
import BuildGraph.Proofs.LiveDependencies
import BuildGraph.Proofs.Failures
import BuildGraph.Proofs.Consistency
import BuildGraph.Proofs.Remaining
import BuildGraph.Proofs.EndToEnd
import BuildGraph.Proofs.Replacements
import BuildGraph.Proofs.Marks
import BuildGraph.Proofs.CachingInSteps
import BuildGraph.Proofs.Rewiring
import BuildGraph.Proofs.RunAgain
import BuildGraph.Proofs.StaysWired
import BuildGraph.Proofs.Json.Tokens
import BuildGraph.Proofs.Json.Tree
import BuildGraph.Proofs.Json.Readers
import BuildGraph.Proofs.Json.Records
import BuildGraph.Proofs.RoundTrip
import BuildGraph.Proofs.WiringAndFocus
import BuildGraph.Proofs.LessWork
import BuildGraph.Proofs.Spelling.Collections
import BuildGraph.Proofs.Spelling.Paths
import BuildGraph.Proofs.Spelling.Records
import BuildGraph.Proofs.Spelling.Queries
import BuildGraph.Proofs.Spelling.Passes
import BuildGraph.Proofs.Spelling.Run
import BuildGraph.Proofs.Composition
import BuildGraph.Proofs.DepthFirst.TopologicalOrder
import BuildGraph.Proofs.DepthFirst.Loop
import BuildGraph.Proofs.DepthFirst.Recursive
import BuildGraph.Proofs.ByteOrder
import BuildGraph.Proofs.Pruning
import BuildGraph.Proofs.Refusals
import BuildGraph.Proofs.Retention
import BuildGraph.Proofs.FileStore
import BuildGraph.Proofs.CommandLine
import BuildGraph.Proofs.CommandLine.Accepted
import BuildGraph.Proofs.CommandLine.Grammar
import BuildGraph.Proofs.LastSelection
import BuildGraph.Proofs.LinkEdges
import BuildGraph.Proofs.Aggregation
import BuildGraph.Proofs.ArtifactEdges
import BuildGraph.Proofs.Publication
import BuildGraph.Proofs.Survivors
import BuildGraph.Proofs.Probing
import BuildGraph.Proofs.Shell.Reader
import BuildGraph.Proofs.Shell.Quoting
import BuildGraph.Proofs.Shell.QuotedBytes
import BuildGraph.Proofs.Shell.CommandLine
import BuildGraph.Proofs.LatestReplacements
import BuildGraph.Proofs.StageOrder
import BuildGraph.Proofs.EdgeList
import BuildGraph.Proofs.LiveRoots
import BuildGraph.Proofs.DepthFirst.Record
import BuildGraph.Proofs.DepthFirst.Work
import BuildGraph.Proofs.TargetOrder
