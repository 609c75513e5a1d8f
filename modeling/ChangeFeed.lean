import ChangeFeed.Act
import ChangeFeed.Capture.Ddl
import ChangeFeed.Capture.Identifier
import ChangeFeed.Capture.Install
import ChangeFeed.ChangeEvent
import ChangeFeed.Chunks
import ChangeFeed.Codec
import ChangeFeed.Config.Basic
import ChangeFeed.Config.Codec
import ChangeFeed.Config.File
import ChangeFeed.Containment
import ChangeFeed.Data
import ChangeFeed.Decimal.Basic
import ChangeFeed.Decimal.Double
import ChangeFeed.Decimal.Order
import ChangeFeed.Decimal.Reader
import ChangeFeed.Document
import ChangeFeed.EntityId
import ChangeFeed.EventType
import ChangeFeed.Failure
import ChangeFeed.Fault
import ChangeFeed.Index.Engine
import ChangeFeed.Index.FullText
import ChangeFeed.Index.Layout
import ChangeFeed.Index.Memory
import ChangeFeed.Index.SearchQuery
import ChangeFeed.Json.Basic
import ChangeFeed.Json.Printer
import ChangeFeed.Json.Reader
import ChangeFeed.Json.Tree
import ChangeFeed.Log.Memory
import ChangeFeed.Log.Merge
import ChangeFeed.Log.Sql
import ChangeFeed.Log.Store
import ChangeFeed.Log.Text
import ChangeFeed.LogModel
import ChangeFeed.LogRow
import ChangeFeed.Pipeline
import ChangeFeed.Poller
import ChangeFeed.Proofs.Accounting
import ChangeFeed.Proofs.Atomicity
import ChangeFeed.Proofs.Calls
import ChangeFeed.Proofs.Capture.Admitted
import ChangeFeed.Proofs.Capture.Catalog
import ChangeFeed.Proofs.Capture.Columns
import ChangeFeed.Proofs.Capture.Decoded
import ChangeFeed.Proofs.Capture.Drain
import ChangeFeed.Proofs.Capture.Effect
import ChangeFeed.Proofs.Capture.Fresh
import ChangeFeed.Proofs.Capture.Install
import ChangeFeed.Proofs.Capture.Mirror
import ChangeFeed.Proofs.Capture.Splice
import ChangeFeed.Proofs.Capture.Writable
import ChangeFeed.Proofs.Config
import ChangeFeed.Proofs.Containment
import ChangeFeed.Proofs.Convergence
import ChangeFeed.Proofs.Coverage
import ChangeFeed.Proofs.Declared
import ChangeFeed.Proofs.Decoding
import ChangeFeed.Proofs.Dispatch
import ChangeFeed.Proofs.Ends
import ChangeFeed.Proofs.Exact
import ChangeFeed.Proofs.Fault
import ChangeFeed.Proofs.Feed
import ChangeFeed.Proofs.Independence
import ChangeFeed.Proofs.Index.Agreement
import ChangeFeed.Proofs.Index.Key
import ChangeFeed.Proofs.Index.Layout
import ChangeFeed.Proofs.Index.Searches
import ChangeFeed.Proofs.Index.Separation
import ChangeFeed.Proofs.Json
import ChangeFeed.Proofs.Json.Tree
import ChangeFeed.Proofs.Log.Calls
import ChangeFeed.Proofs.Log.Decodable
import ChangeFeed.Proofs.Log.Interchange
import ChangeFeed.Proofs.Log.LookAhead
import ChangeFeed.Proofs.Log.Merged
import ChangeFeed.Proofs.Log.Numbering
import ChangeFeed.Proofs.Log.Order
import ChangeFeed.Proofs.Log.Reading
import ChangeFeed.Proofs.Log.Retry
import ChangeFeed.Proofs.Log.SqlTable
import ChangeFeed.Proofs.Log.Tables
import ChangeFeed.Proofs.Log.Transaction
import ChangeFeed.Proofs.Log.Turns
import ChangeFeed.Proofs.Log.Windows
import ChangeFeed.Proofs.Meaning
import ChangeFeed.Proofs.MemoryWorld
import ChangeFeed.Proofs.Observer
import ChangeFeed.Proofs.Policy
import ChangeFeed.Proofs.Poller
import ChangeFeed.Proofs.Recording
import ChangeFeed.Proofs.Reindex
import ChangeFeed.Proofs.SortedMap
import ChangeFeed.Proofs.Source
import ChangeFeed.Proofs.Sql.Table
import ChangeFeed.Proofs.Statistics
import ChangeFeed.Proofs.Trace
import ChangeFeed.Proofs.Updater
import ChangeFeed.Proofs.Wiring
import ChangeFeed.Provider
import ChangeFeed.Recorder
import ChangeFeed.SortedMap
import ChangeFeed.Source
import ChangeFeed.SourceState
import ChangeFeed.Sql.Affinity
import ChangeFeed.Sql.Capture
import ChangeFeed.Sql.Database
import ChangeFeed.Sql.Script
import ChangeFeed.Sql.Table
import ChangeFeed.Sql.Value
import ChangeFeed.Text.Alphanumeric
import ChangeFeed.Text.CaseTable
import ChangeFeed.Text.Hex
import ChangeFeed.Text.Lowercase
import ChangeFeed.Text.Space
import ChangeFeed.Text.Words
import ChangeFeed.Tree
import ChangeFeed.Updater
import ChangeFeed.Yaml.Block
import ChangeFeed.Yaml.Cursor
import ChangeFeed.Yaml.Node
import ChangeFeed.Yaml.Plain
import ChangeFeed.Yaml.Printer
import ChangeFeed.Yaml.Quoted
import ChangeFeed.Yaml.Token
import ChangeFeed.Yaml.Tree
import ChangeFeed.Yaml.Typed
