import ChangeFeed.EntityId
import ChangeFeed.SourceState
import ChangeFeed.Sql.Value

namespace ChangeFeed

inductive FailureKind where
  | database
  | index
  | entityProvider
  | invalidState
  | invalidModel
  | consumer
  | config
  | serialization
  | io
  deriving DecidableEq

namespace FailureKind

def all : List FailureKind :=
  [database, index, entityProvider, invalidState, invalidModel, consumer, config, serialization, io]

def name : FailureKind → String
  | database => "database"
  | index => "index"
  | entityProvider => "entity_provider"
  | invalidState => "invalid_state"
  | invalidModel => "invalid_model"
  | consumer => "consumer"
  | config => "config"
  | serialization => "serialization"
  | io => "io"

end FailureKind

inductive ModelError where
  | emptyTableName
  | noIds (table : String)
  | sameColumns (table : String)
  | noColumns (table entityType : String)
  | columnCounts (table entityType : String) (log watched : Nat)
  | repeatedColumn (table column : String)
  | notIdentifier (name : String)
  | repeatedTable (table : String)
  deriving DecidableEq

namespace ModelError

def message : ModelError → String
  | emptyTableName => "update_table and original_table must not be empty"
  | noIds table => s!"Log table '{table}' declares no id columns"
  | sameColumns table => s!"Log table '{table}': sequence and event type columns must differ"
  | noColumns table entityType => s!"Log table '{table}': id mapping for '{entityType}' has no columns"
  | columnCounts table entityType log watched =>
    s!"Log table '{table}': id mapping for '{entityType}' has {log} log columns but {watched} original columns"
  | repeatedColumn table column => s!"Log table '{table}': column '{column}' declared twice"
  | notIdentifier name => s!"'{name}' is not a valid SQL identifier"
  | repeatedTable table => s!"Log table '{table}' configured twice"

end ModelError

inductive ContainmentError where
  | undeclaredRoot (root entityType : String)
  | emptyField (root entityType : String)
  deriving DecidableEq

namespace ContainmentError

def message : ContainmentError → String
  | undeclaredRoot root entityType => s!"'{root}' embeds '{entityType}' but is not a declared index root"
  | emptyField root entityType => s!"Embedding of '{entityType}' in '{root}' has an empty id field"

end ContainmentError

inductive LayoutError where
  | reserved (field : String)
  | twoKinds (field : String)
  | collision (earlier field : String)
  deriving DecidableEq

namespace LayoutError

def message : LayoutError → String
  | reserved field => s!"Index field '{field}' is empty or uses the reserved '_' prefix"
  | twoKinds field => s!"Index field '{field}' declared as both keyword and text"
  | collision earlier field => s!"Index fields '{earlier}' and '{field}' collide"

end LayoutError

inductive SqlError where
  | unique (table column : String)
  | notNull (table column : String)
  | check (condition : String)
  | noSuchTable (table : String)
  | noSuchColumn (column : String)
  | noColumnNamed (table column : String)
  | datatypeMismatch
  | columnType (className : String) (position : Nat) (column : String)
  | tableExists (table : String)
  | triggerExists (trigger : String)
  | noSuchTrigger (trigger : String)
  | duplicateColumn (column : String)
  | reservedName (name : String)
  | full
  | syntaxAt (word : String)
  | incomplete
  | located (cause : SqlError) (statement : String) (offset : Nat)
  deriving DecidableEq

namespace SqlError

def message : SqlError → String
  | unique table column => s!"UNIQUE constraint failed: {table}.{column}"
  | notNull table column => s!"NOT NULL constraint failed: {table}.{column}"
  | check condition => s!"CHECK constraint failed: {condition}"
  | noSuchTable table => s!"no such table: {table}"
  | noSuchColumn column => s!"no such column: {column}"
  | noColumnNamed table column => s!"table {table} has no column named {column}"
  | datatypeMismatch => "datatype mismatch"
  | columnType className position column =>
    s!"Invalid column type {className} at index: {position}, name: {column}"
  | tableExists table => s!"table {table} already exists"
  | triggerExists trigger => s!"trigger {trigger} already exists"
  | noSuchTrigger trigger => s!"no such trigger: {trigger}"
  | duplicateColumn column => s!"duplicate column name: {column}"
  | reservedName name => s!"object name reserved for internal use: {name}"
  | full => "database or disk is full"
  | syntaxAt word => s!"near \"{word}\": syntax error"
  | incomplete => "incomplete input"
  | located cause statement offset => s!"{cause.message} in {statement} at offset {offset}"

end SqlError

inductive ConfigError where
  | range (field value low high hint : String)
  | missingVersion
  | unsupportedVersion (found : Nat) (supported : List Nat)
  | noLogTables
  | model (cause : ModelError)
  | repeatedTable (table : String)
  | containment (cause : ContainmentError)
  | invalid (reason : String)
  | io (text : String)
  | yaml
  deriving DecidableEq

namespace ConfigError

def message : ConfigError → String
  | range field value low high hint =>
    s!"Invalid range for field '{field}': {value} not in {low}..={high}. {hint}"
  | missingVersion =>
    "Missing 'version' field in configuration file. Add 'version: 1' to the top of your YAML file."
  | unsupportedVersion found supported =>
    let versions := ", ".intercalate (supported.map toString)
    s!"Unsupported configuration version {found}. Supported versions: {versions}"
  | noLogTables => "Invalid configuration: at least one entry under 'log_tables' is required"
  | model cause => s!"Invalid configuration: {cause.message}"
  | repeatedTable table => s!"Invalid configuration: log table '{table}' is declared twice"
  | containment cause => s!"Invalid configuration: {cause.message}"
  | invalid reason => s!"Invalid configuration: {reason}"
  | io text => s!"IO error: {text}"
  | yaml => "YAML parsing error"

end ConfigError

inductive Failure where
  /-- Reported by an adapter in its own words. -/
  | reported (kind : FailureKind) (message : String)
  | model (cause : ModelError)
  | containment (cause : ContainmentError)
  | layout (cause : LayoutError)
  | config (cause : ConfigError)
  | sql (cause : SqlError)
  | io (text : String)
  | idCount (table : String) (columns values : Nat)
  | missingId (sequence : Int64) (column entityType : String)
  | outOfOrder (table : String) (sequence : Int64)
  | deletedRows (table : String) (expected deleted : Nat)
  | ddl (line : String)
  | unsupportedId (value : Sql.Value) (table column : String)
  | alreadyOpen
  | notOpen
  | noCurrentRow
  | sessionClosed
  | loadFailed (entityType : String) (id : EntityId)
  | transition (source target : SourceState)
  | noRuntime
  | batchSizes
  | pageSize
  | consumer (name : String) (cause : Failure)
  | notKeywordField (field : String)
  | query (text : String)
  | indexSchema
  deriving DecidableEq

namespace Failure

def kind : Failure → FailureKind
  | reported kind _ => kind
  | model _ | containment _ | layout _ | idCount .. | notKeywordField _ => .invalidModel
  | config _ | batchSizes | pageSize => .config
  | sql _ | missingId .. | outOfOrder .. | deletedRows .. | ddl _ | unsupportedId .. => .database
  | io _ => .io
  | alreadyOpen | notOpen | noCurrentRow | sessionClosed | transition .. | noRuntime => .invalidState
  | loadFailed .. => .entityProvider
  | consumer .. => .consumer
  | query _ | indexSchema => .index

def message : Failure → String
  | reported _ message => message
  | model cause => cause.message
  | containment cause => cause.message
  | layout cause => cause.message
  | config cause => cause.message
  | sql cause => s!"SQLite error: {cause.message}"
  | io text => s!"I/O error: {text}"
  | idCount table columns values => s!"'{table}' has {columns} id columns, got {values} values"
  | missingId sequence column entityType =>
    s!"Log row {sequence} has no value for id column '{column}' ({entityType})"
  | outOfOrder table sequence => s!"Log table '{table}' returned sequence id {sequence} out of order"
  | deletedRows table expected deleted =>
    s!"Expected to delete {expected} rows from '{table}', deleted {deleted}"
  | ddl line => s!"DDL failed: {line}"
  | unsupportedId value table column =>
    s!"Unsupported id value {value.describe} in {table}.{column}"
  | alreadyOpen => "reader already opened"
  | notOpen => "next() called before open()"
  | noCurrentRow => "no current row (call next() first)"
  | sessionClosed => "entity session already closed"
  | loadFailed entityType id => s!"failed to load {entityType}#{id.term}"
  | transition source target => s!"cannot move update source from {source.name} to {target.name}"
  | noRuntime => "UpdateSource::start must be called inside a Tokio runtime"
  | batchSizes => "batch_size and window_size must be positive"
  | pageSize => "page_size must be positive"
  | consumer name cause => s!"Consumer '{name}' failed: [{cause.kind.name}] {cause.message}"
  | notKeywordField field => s!"'{field}' is not a keyword field of the index layout"
  | query text => s!"Invalid query '{text}'"
  | indexSchema => "Tantivy error: Schema error: 'An index exists but the schema does not match.'"

def display (f : Failure) : String := s!"[{f.kind.name}] {f.message}"

def sourceText : Failure → Option String
  | config cause => some cause.message
  | io text => some text
  | consumer _ cause => some cause.display
  | _ => none

end Failure

end ChangeFeed
