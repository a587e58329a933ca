import ScriptBundler.Text.Quoted
import ScriptBundler.Decimal.Shortest
import ScriptBundler.Source.Memory
import ScriptBundler.Source.Directory
import ScriptBundler.Bundle.Concat
import ScriptBundler.Bundle.Zoo
import ScriptBundler.Cache.Scene
import ScriptBundler.Fingerprint
import ScriptBundler.Disk.Listing
import ScriptBundler.Error
import ScriptBundler.Json.Text
import ScriptBundler.Config.JsonText
import ScriptBundler.Yaml.Scalar
import ScriptBundler.Yaml.Token
import ScriptBundler.Yaml.Event
import ScriptBundler.Config.Load
import ScriptBundler.Compile.Compiler
import ScriptBundler.CommandLine.Program
import ScriptBundler.Main
import ScriptBundler.Proofs.Dependency.Graph
import ScriptBundler.Proofs.Dependency.Traversal
import ScriptBundler.Proofs.Dependency.Resolver
import ScriptBundler.Proofs.Dependency.Loop
import ScriptBundler.Proofs.Dependency.Coverage
import ScriptBundler.Proofs.Dependency.Agreement
import ScriptBundler.Proofs.Script.Lines
import ScriptBundler.Proofs.Script.Residue
import ScriptBundler.Proofs.Bundle.Described
import ScriptBundler.Proofs.Bundle.Pool
import ScriptBundler.Proofs.Bundle.Pieces
import ScriptBundler.Proofs.Bundle.Bare
import ScriptBundler.Proofs.Cache.Steps
import ScriptBundler.Proofs.Cache.World
import ScriptBundler.Proofs.Cache.Renewal
import ScriptBundler.Proofs.Cache.Transparency
import ScriptBundler.Proofs.Cache.Recency
import ScriptBundler.Proofs.Cache.Inclusion
import ScriptBundler.Proofs.Cache.Separate
import ScriptBundler.Proofs.Disk.Follow
import ScriptBundler.Proofs.Disk.Tree
import ScriptBundler.Proofs.Pattern.Walk
import ScriptBundler.Proofs.Attempt
import ScriptBundler.Proofs.Pattern.Reading
import ScriptBundler.Proofs.Pattern.Plan
import ScriptBundler.Proofs.Pattern.Segments
import ScriptBundler.Proofs.Pattern.Spelling
import ScriptBundler.Proofs.Pattern.Descent
import ScriptBundler.Proofs.Pattern.Names
import ScriptBundler.Proofs.Source.Directory
import ScriptBundler.Proofs.Source.Below
import ScriptBundler.Proofs.Source.Renamed
import ScriptBundler.Proofs.Source.Alike
import ScriptBundler.Proofs.Build.Request
import ScriptBundler.Proofs.Build.Schedule
import ScriptBundler.Proofs.Build.Deliver
import ScriptBundler.Proofs.Build.Expected
import ScriptBundler.Proofs.Build.Clear
import ScriptBundler.Proofs.Build.UpToDate
import ScriptBundler.Proofs.Build.Look
import ScriptBundler.Proofs.Build.Rounds
import ScriptBundler.Proofs.Build.Incremental
import ScriptBundler.Proofs.Build.Advance
import ScriptBundler.Proofs.Build.Sources
import ScriptBundler.Proofs.Build.Filing
import ScriptBundler.Proofs.Build.Unchanged
import ScriptBundler.Proofs.Script.Comments
import ScriptBundler.Proofs.Disk.Shape
import ScriptBundler.Proofs.Disk.Named
import ScriptBundler.Proofs.Build.Holding
import ScriptBundler.Proofs.Build.Independent
import ScriptBundler.Proofs.CommandLine.Again
import ScriptBundler.Proofs.CommandLine.Account
import ScriptBundler.Proofs.Bundle.Seams
import ScriptBundler.Proofs.Dependency.Complaints
import ScriptBundler.Proofs.Dependency.Lasting
import ScriptBundler.Proofs.Build.Invalidation
import ScriptBundler.Proofs.Script.Search
import ScriptBundler.Proofs.Script.Grammar
import ScriptBundler.Proofs.Script.Clauses
import ScriptBundler.Proofs.Bundle.Required
import ScriptBundler.Proofs.Cache.Failure
import ScriptBundler.Proofs.Config.Merge
import ScriptBundler.Proofs.CommandLine.Starter
import ScriptBundler.Proofs.Pattern.Strides
import ScriptBundler.Proofs.Source.Fetched
import ScriptBundler.Proofs.Config.Encoding
import ScriptBundler.Proofs.Fingerprint
import ScriptBundler.Proofs.Compile.Line
import ScriptBundler.Proofs.Compile.Display
import ScriptBundler.Proofs.Compile.Caret
import ScriptBundler.Proofs.Build.Highlight
import ScriptBundler.Proofs.Dependency.Moments
