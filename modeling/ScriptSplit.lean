import ScriptSplit.Config.Fingerprint
import ScriptSplit.Hash.Blake3
import ScriptSplit.Scan.Scanner
import ScriptSplit.View.Message
import ScriptSplit.View.Output
import ScriptSplit.Report.Decoding
import ScriptSplit.Text.Printable
import ScriptSplit.Analysis.Project
import ScriptSplit.Format.Json.Reader
import ScriptSplit.Format.Json.Writer
import ScriptSplit.Report.Encoding
import ScriptSplit.Config.Validation
import ScriptSplit.Config.Shape
import ScriptSplit.Format.Toml.Reader
import ScriptSplit.Format.Yaml.ScalarText
import ScriptSplit.Format.Yaml.Tree
import ScriptSplit.Config.Loading
import ScriptSplit.Cache.Store
import ScriptSplit.Report.Directory
import ScriptSplit.Server.Manifest
import ScriptSplit.Server.Tool
import ScriptSplit.View.Progress
import ScriptSplit.Config.Schema
import ScriptSplit.Config.Writing
import ScriptSplit.Scan.Collect
import ScriptSplit.Command.Actions
import ScriptSplit.Config.Encoding
import ScriptSplit.Main
import ScriptSplit.Proofs.Text.Encoding
import ScriptSplit.Proofs.Text.Sorted
import ScriptSplit.Proofs.Text.Boundary
import ScriptSplit.Proofs.Registry.Edges
import ScriptSplit.Proofs.Disk.Path
import ScriptSplit.Proofs.Disk.Tree
import ScriptSplit.Proofs.Analysis.Pool
import ScriptSplit.Proofs.Analysis.CrossFile
import ScriptSplit.Proofs.Analysis.Accounting
import ScriptSplit.Proofs.Format.Json.Reader
import ScriptSplit.Proofs.Format.Json.Raw
import ScriptSplit.Proofs.Report.RoundTrip
import ScriptSplit.Proofs.Config.Fingerprint
import ScriptSplit.Proofs.Cache.Entry
import ScriptSplit.Proofs.Cache.Store
import ScriptSplit.Proofs.Analysis.Transparency
import ScriptSplit.Proofs.Module.Partition
import ScriptSplit.Proofs.Module.Inheritance
import ScriptSplit.Proofs.Registry.Cycles
import ScriptSplit.Proofs.Analysis.Consistency
import ScriptSplit.Proofs.Disk.Growth
import ScriptSplit.Proofs.Disk.Trail
import ScriptSplit.Proofs.Disk.Below
import ScriptSplit.Proofs.Format.Json.Pretty
import ScriptSplit.Proofs.Time.Moment
import ScriptSplit.Proofs.Report.Naming
import ScriptSplit.Proofs.Report.Reading
import ScriptSplit.Proofs.Report.Directory
import ScriptSplit.Proofs.Analysis.Interleaving
import ScriptSplit.Proofs.Disk.Resolved
import ScriptSplit.Proofs.Disk.Within
import ScriptSplit.Proofs.Disk.Names
import ScriptSplit.Proofs.Scan.Candidates
import ScriptSplit.Proofs.Scan.Directory
import ScriptSplit.Proofs.Scan.Subdirectory
import ScriptSplit.Proofs.Format.Range
import ScriptSplit.Proofs.Format.Toml.Range
import ScriptSplit.Proofs.Format.Yaml.Range
import ScriptSplit.Proofs.Config.Shape
import ScriptSplit.Proofs.Config.Overlay
import ScriptSplit.Proofs.Config.Loading
import ScriptSplit.Proofs.Script.Body
import ScriptSplit.Proofs.Script.Region
import ScriptSplit.Proofs.Format.Toml.Scalar
import ScriptSplit.Proofs.Format.Toml.Section
import ScriptSplit.Proofs.Config.Writing
import ScriptSplit.Proofs.Format.Json.Inversion
import ScriptSplit.Proofs.Format.Json.Literal
import ScriptSplit.Proofs.Format.Json.Mirror
import ScriptSplit.Proofs.Time.Calendar
import ScriptSplit.Proofs.Script.Blanking
import ScriptSplit.Proofs.Script.Occurrence
import ScriptSplit.Proofs.Script.Reading
import ScriptSplit.Proofs.Script.CallSite
import ScriptSplit.Proofs.Script.Declaration
import ScriptSplit.Proofs.Script.Header
import ScriptSplit.Proofs.Script.Symbol
import ScriptSplit.Proofs.Script.Complexity
import ScriptSplit.Proofs.Script.Boundary
import ScriptSplit.Proofs.Report.Texts
import ScriptSplit.Proofs.Analysis.Cut
import ScriptSplit.Proofs.Analysis.Origin
import ScriptSplit.Proofs.Disk.Frame
import ScriptSplit.Proofs.Disk.Cleaned
import ScriptSplit.Proofs.Disk.Room
import ScriptSplit.Proofs.Cache.Directory
import ScriptSplit.Proofs.Cache.History
import ScriptSplit.Proofs.Cache.Memory
import ScriptSplit.Proofs.Cache.Lookup
import ScriptSplit.Proofs.Disk.Absolute
import ScriptSplit.Proofs.Report.Blocking
import ScriptSplit.Proofs.Scan.Explicit
import ScriptSplit.Proofs.Scan.Order
import ScriptSplit.Proofs.Analysis.SizeLimit
import ScriptSplit.Proofs.View.Flowchart
import ScriptSplit.Proofs.Server.Prompt
import ScriptSplit.Proofs.Disk.Through
import ScriptSplit.Proofs.Scan.Link
import ScriptSplit.Proofs.View.Subgraph
import ScriptSplit.Proofs.Cache.Expiry
import ScriptSplit.Proofs.Config.Number
import ScriptSplit.Proofs.Scan.Upwards
