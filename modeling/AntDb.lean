import AntDb.Interference
import AntDb.Undo
import AntDb.Operations
import AntDb.Reopening
import AntDb.Filing
import AntDb.Database
import AntDb.Copy
import AntDb.Statements
import AntDb.RowFree
import AntDb.Handler
import AntDb.Connections
import AntDb.Serving
import AntDb.Leaks
import AntDb.Definitions
import AntDb.Ddl
import AntDb.Blocking
import AntDb.Versions
import AntDb.Predicates
import AntDb.Updating
import AntDb.Horizon
import AntDb.Snapshots
import AntDb.References
import AntDb.Lib.Gathering
import AntDb.Query
import AntDb.Joining
import AntDb.Lib.Lexicographic
import AntDb.Sorting
import AntDb.Selecting
import AntDb.Lib.Files
import AntDb.Disk
import AntDb.Encoding
import AntDb.Persisting
import AntDb.Indexing
import AntDb.Lib.StableSort
import AntDb.Lib.Finding
import AntDb.Scanning
import AntDb.Counting
import AntDb.Lib.Kleene
import AntDb.ThreeValued
import AntDb.CopyFormat
import AntDb.Escaping
import AntDb.CopyValues
import AntDb.CopyParsing
import AntDb.CopyRows
import AntDb.CopyRoundTrip
import AntDb.CopyNulls
import AntDb.Numbering
import AntDb.Omitting
import AntDb.ShowTables
import AntDb.Wire
import AntDb.Dml
import AntDb.Literals
import AntDb.Coercing
import AntDb.Inserting
import AntDb.Lib.Linked
import AntDb.Layout
import AntDb.Outlines
import AntDb.Packing
import AntDb.Placement
import AntDb.Retaining
import AntDb.FlushFaults
import AntDb.EvictionFaults
import AntDb.MergeFaults
import AntDb.Appending
import AntDb.Atomicity
import AntDb.UsingJoins
import AntDb.Lib.Ledger
import AntDb.Lib.Totals
import AntDb.Sizes
import AntDb.Swapping
import AntDb.Accounting
import AntDb.Budgets
import AntDb.Succession
import AntDb.Serial
import AntDb.Diskless
import AntDb.SerialRuns
import AntDb.Counters
import AntDb.Restarting
import AntDb.Lib.Overlays
import AntDb.Isolation
import AntDb.Residence
import AntDb.Sharing
import AntDb.Concurrency
import AntDb.Headings
import AntDb.Retrieval
import AntDb.Effects
import AntDb.Requests
import AntDb.Failures
import AntDb.Binding
import AntDb.Pipeline
import AntDb.Lib.Keyed
import AntDb.Assigning
import AntDb.Executing
import AntDb.Altering
