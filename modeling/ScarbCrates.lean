import ScarbCrates.Assoc
import ScarbCrates.CommandLine.Arguments
import ScarbCrates.CommandLine.Numeral
import ScarbCrates.CommandLine.Run
import ScarbCrates.CommandLine.Sights
import ScarbCrates.Config
import ScarbCrates.Crate
import ScarbCrates.Database
import ScarbCrates.Datum.Basic
import ScarbCrates.Datum.Builtins
import ScarbCrates.Datum.Encode
import ScarbCrates.Datum.Literal
import ScarbCrates.Datum.Order
import ScarbCrates.Decimal.Binary64
import ScarbCrates.Decimal.Shortest
import ScarbCrates.Derivation
import ScarbCrates.Digest.Hex
import ScarbCrates.Digest.Sha256
import ScarbCrates.Discovery
import ScarbCrates.FileTree.Basic
import ScarbCrates.FileTree.Disk
import ScarbCrates.Json.Draft
import ScarbCrates.Json.Reader
import ScarbCrates.Json.Syntax
import ScarbCrates.Json.Value
import ScarbCrates.Json.Writer
import ScarbCrates.Main
import ScarbCrates.Manifest
import ScarbCrates.Metadata.Basic
import ScarbCrates.Metadata.Schema
import ScarbCrates.Notice
import ScarbCrates.Path.Basic
import ScarbCrates.Path.Home
import ScarbCrates.Proofs.CommandLine.Agreeing
import ScarbCrates.Proofs.CommandLine.Printing
import ScarbCrates.Proofs.Database.Asking
import ScarbCrates.Proofs.Database.Deriving
import ScarbCrates.Proofs.Database.Entries
import ScarbCrates.Proofs.Database.Fetching
import ScarbCrates.Proofs.Database.Rerunning
import ScarbCrates.Proofs.Database.Returning
import ScarbCrates.Proofs.Database.Sources
import ScarbCrates.Proofs.Database.Warm
import ScarbCrates.Proofs.Datum.Canonical
import ScarbCrates.Proofs.Datum.Equality
import ScarbCrates.Proofs.Datum.Fingerprints
import ScarbCrates.Proofs.Datum.Sorting
import ScarbCrates.Proofs.Datum.Writing
import ScarbCrates.Proofs.Derivation.Componentwise
import ScarbCrates.Proofs.Derivation.Indexing
import ScarbCrates.Proofs.Derivation.Naming
import ScarbCrates.Proofs.Digest.Streaming
import ScarbCrates.Proofs.Discovery.Owner
import ScarbCrates.Proofs.Discovery.Restarting
import ScarbCrates.Proofs.FileTree.Reaching
import ScarbCrates.Proofs.FirstMention
import ScarbCrates.Proofs.Json.Drafting
import ScarbCrates.Proofs.Json.Grammar
import ScarbCrates.Proofs.Json.Lexing
import ScarbCrates.Proofs.Json.Quoting
import ScarbCrates.Proofs.Json.Reading
import ScarbCrates.Proofs.Json.Rearranging
import ScarbCrates.Proofs.Json.Unambiguous
import ScarbCrates.Proofs.Json.Writing
import ScarbCrates.Proofs.Metadata.Extending
import ScarbCrates.Proofs.Metadata.Form
import ScarbCrates.Proofs.Metadata.Rejecting
import ScarbCrates.Proofs.Path.Spelling
import ScarbCrates.Proofs.Path.Stem
import ScarbCrates.Proofs.Path.Walking
import ScarbCrates.Proofs.Query.Freshness
import ScarbCrates.Proofs.Query.History
import ScarbCrates.Proofs.Query.Memoization
import ScarbCrates.Proofs.Query.Reading
import ScarbCrates.Proofs.Query.Sequencing
import ScarbCrates.Proofs.Query.Serving
import ScarbCrates.Proofs.Query.Solo
import ScarbCrates.Proofs.Query.Soundness
import ScarbCrates.Proofs.Query.Tracking
import ScarbCrates.Proofs.Query.Uncached
import ScarbCrates.Proofs.Schema.Following
import ScarbCrates.Proofs.Schema.Form
import ScarbCrates.Proofs.Schema.Reading
import ScarbCrates.Proofs.Schema.Returning
import ScarbCrates.Proofs.Schema.RoundTrip
import ScarbCrates.Proofs.Schema.Splitting
import ScarbCrates.Proofs.Session.Bookkeeping
import ScarbCrates.Proofs.Session.Failing
import ScarbCrates.Proofs.Session.Observing
import ScarbCrates.Proofs.Session.Requests
import ScarbCrates.Proofs.Settings.Flags
import ScarbCrates.Proofs.Settings.Ordering
import ScarbCrates.Proofs.SourceRoot.Classes
import ScarbCrates.Proofs.SourceRoot.EntryFile
import ScarbCrates.Proofs.Text.Encoding
import ScarbCrates.Proofs.Text.Lines
import ScarbCrates.Proofs.Text.Trimming
import ScarbCrates.Proofs.Threads.Accounting
import ScarbCrates.Proofs.Threads.Alone
import ScarbCrates.Proofs.Threads.Callers
import ScarbCrates.Proofs.Threads.Dropping
import ScarbCrates.Proofs.Threads.Gathering
import ScarbCrates.Proofs.Threads.Incidents
import ScarbCrates.Proofs.Threads.Locks
import ScarbCrates.Proofs.Threads.Nested
import ScarbCrates.Proofs.Threads.Records
import ScarbCrates.Proofs.Threads.Sessions
import ScarbCrates.Proofs.Threads.Sharing
import ScarbCrates.Proofs.Threads.SingleFlight
import ScarbCrates.Proofs.Threads.Turns
import ScarbCrates.Proofs.Toolchain.Composing
import ScarbCrates.Proofs.Toolchain.Outcome
import ScarbCrates.Proofs.Toolchain.Processes
import ScarbCrates.Proofs.Toolchain.Scanning
import ScarbCrates.Query.Cache
import ScarbCrates.Query.Computation
import ScarbCrates.Query.Digests
import ScarbCrates.Query.Session
import ScarbCrates.Scales
import ScarbCrates.Schema.Decode
import ScarbCrates.Schema.Fault
import ScarbCrates.Schema.Report
import ScarbCrates.Schema.Shape
import ScarbCrates.Settings.Basic
import ScarbCrates.Settings.Cfg
import ScarbCrates.Settings.OfMetadata
import ScarbCrates.SourceRoot
import ScarbCrates.Text.Classes
import ScarbCrates.Text.Letter
import ScarbCrates.Text.Printable
import ScarbCrates.Text.Quoted
import ScarbCrates.Text.Upper
import ScarbCrates.Text.Utf8
import ScarbCrates.Toolchain.Output
import ScarbCrates.Toolchain.Process
import ScarbCrates.Toolchain.Run
