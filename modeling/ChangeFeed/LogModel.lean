import ChangeFeed.Failure
import ChangeFeed.LogRow

namespace ChangeFeed

inductive ColumnType where
  | integer
  | text
  deriving DecidableEq

namespace ColumnType

def all : List ColumnType := [integer, text]

def name : ColumnType → String
  | integer => "integer"
  | text => "text"

end ColumnType

/-- Where a log table keeps the id of one entity type, and from where it is copied: the log column
at a position receives the watched column at the same position. -/
structure IdMapping where
  entityType : String
  logColumns : List String
  watchedColumns : List String
  columnType : ColumnType := .integer
  deriving DecidableEq

namespace IdMapping

def id (m : IdMapping) (row : LogRow) : Except Failure EntityId :=
  EntityId.mk <$> m.logColumns.mapM fun column =>
    match row.column? column with
    | some value => .ok value
    | none => .error (.missingId row.sequence column m.entityType)

def id? (m : IdMapping) (row : LogRow) : Option EntityId :=
  EntityId.mk <$> m.logColumns.mapM row.column?

end IdMapping

/-- One log table. The first id mapping identifies the changed row; later ones refer to other
entities and may be empty. -/
structure LogModel where
  logTable : String
  watchedTable : String
  sequenceColumn : String := "update_id"
  eventColumn : String := "event_case"
  ids : List IdMapping
  deriving DecidableEq

namespace LogModel

def addColumns (table : String) : List String → List String → Except ModelError (List String)
  | seen, [] => .ok seen
  | seen, c :: rest =>
    if c ∈ seen then .error (.repeatedColumn table c) else addColumns table (c :: seen) rest

def checkMappings (table : String) : List String → List IdMapping → Except ModelError Unit
  | _, [] => .ok ()
  | seen, m :: rest => do
    if m.logColumns = [] then throw (.noColumns table m.entityType)
    if m.logColumns.length ≠ m.watchedColumns.length then
      throw (.columnCounts table m.entityType m.logColumns.length m.watchedColumns.length)
    let seen ← addColumns table seen m.logColumns
    checkMappings table seen rest

/-- Checks the structure of a description: tables are named, there are ids, every mapping pairs its
columns, and no column of the log table is declared twice. -/
def validate (m : LogModel) : Except ModelError Unit := do
  if m.logTable = "" ∨ m.watchedTable = "" then throw .emptyTableName
  if m.ids = [] then throw (.noIds m.logTable)
  if m.sequenceColumn = m.eventColumn then throw (.sameColumns m.logTable)
  checkMappings m.logTable [m.eventColumn, m.sequenceColumn] m.ids

structure ColumnPair where
  mapping : IdMapping
  log : String
  watched : String

def columnPairs (m : LogModel) : List ColumnPair :=
  m.ids.flatMap fun mapping =>
    (mapping.logColumns.zip mapping.watchedColumns).map fun c => ⟨mapping, c.1, c.2⟩

def logColumns (m : LogModel) : List String := m.columnPairs.map (·.log)

def validateAll (models : List LogModel) : Except ModelError Unit :=
  go [] models
where
  go : List String → List LogModel → Except ModelError Unit
    | _, [] => .ok ()
    | tables, m :: rest => do
      m.validate
      if m.logTable ∈ tables then throw (.repeatedTable m.logTable)
      go (m.logTable :: tables) rest

end LogModel

end ChangeFeed
