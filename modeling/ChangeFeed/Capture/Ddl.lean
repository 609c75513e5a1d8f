import ChangeFeed.Capture.Identifier
import ChangeFeed.Text.Lowercase

namespace ChangeFeed

inductive Dialect where
  | sqlite
  | postgres
  | mySql
  deriving DecidableEq

namespace Dialect

def all : List Dialect := [sqlite, postgres, mySql]

def name : Dialect → String
  | sqlite => "sqlite"
  | postgres => "postgres"
  | mySql => "mysql"

end Dialect

/-- The counter from which every log row takes its sequence id. -/
def counterName : String := "isync_sequence"

def triggerName (watchedTable : String) (eventType : EventType) : String :=
  s!"isync_{Text.lowercase watchedTable}_{eventType.name}"

def functionName (watchedTable : String) (eventType : EventType) : String :=
  s!"{triggerName watchedTable eventType}_fn"

inductive LogColumnRole where
  | sequence
  | id (type : ColumnType) (required : Bool)
  | event
  deriving DecidableEq

structure LogColumn where
  name : String
  role : LogColumnRole
  deriving DecidableEq

namespace LogColumn

def isRequired (c : LogColumn) : Bool :=
  match c.role with
  | .id _ required => required
  | .sequence | .event => true

end LogColumn

def rowAlias : EventType → String
  | .insert | .update => "NEW"
  | .delete => "OLD"

/-- What a trigger writes into a log table: the next sequence id, a copy of watched columns, and
the code of the event. -/
structure Capture where
  logTable : String
  sequenceColumn : String
  /-- Log columns beside the watched columns they receive. -/
  copied : List (String × String)
  eventColumn : String
  eventType : EventType
  deriving DecidableEq

namespace Capture

def columns (c : Capture) : List String := c.copied.map (·.1) ++ [c.eventColumn]

def values (c : Capture) : List String :=
  c.copied.map (fun p => s!"{rowAlias c.eventType}.{p.2}") ++ [toString c.eventType.code]

end Capture

namespace LogModel

def capture (m : LogModel) (eventType : EventType) : Capture where
  logTable := m.logTable
  sequenceColumn := m.sequenceColumn
  copied := m.columnPairs.map fun c => (c.log, c.watched)
  eventColumn := m.eventColumn
  eventType

def mappingColumns (mapping : IdMapping) (required : Bool) : List LogColumn :=
  mapping.logColumns.map fun name => ⟨name, .id mapping.columnType required⟩

def idColumns (m : LogModel) : List LogColumn :=
  match m.ids with
  | [] => []
  | first :: later => mappingColumns first true ++ later.flatMap (mappingColumns · false)

def tableColumns (m : LogModel) : List LogColumn :=
  ⟨m.sequenceColumn, .sequence⟩ :: m.idColumns ++ [⟨m.eventColumn, .event⟩]

end LogModel

structure CaptureTrigger where
  name : String
  watchedTable : String
  capture : Capture
  deriving DecidableEq

inductive Ddl where
  | createCounter
  | seedCounter
  | dropCounter
  | createLogTable (table : String) (columns : List LogColumn)
  | replaceFunction (function : String) (capture : Capture)
  | createTrigger (trigger : CaptureTrigger)
  | dropTrigger (trigger watchedTable : String)
  | dropFunction (function : String)
  deriving DecidableEq

namespace Ddl

def columnType : Dialect → LogColumnRole → String
  | .sqlite, .sequence => "INTEGER PRIMARY KEY"
  | .postgres, .sequence => "BIGINT PRIMARY KEY"
  | .mySql, .sequence => "BIGINT NOT NULL PRIMARY KEY"
  | .sqlite, .id .integer _ => "INTEGER"
  | .postgres, .id .integer _ | .mySql, .id .integer _ => "BIGINT"
  | .sqlite, .id .text _ | .postgres, .id .text _ => "TEXT"
  | .mySql, .id .text _ => "VARCHAR(255)"
  | .sqlite, .event | .postgres, .event => "INTEGER NOT NULL"
  | .mySql, .event => "INT NOT NULL"

def renderColumn (d : Dialect) (c : LogColumn) : String :=
  let constraint := match c.role with
    | .id _ true => " NOT NULL"
    | _ => ""
  s!"{c.name} {columnType d c.role}{constraint}"

def renderEvent : EventType → String
  | .insert => "INSERT"
  | .update => "UPDATE"
  | .delete => "DELETE"

def renderInsert (c : Capture) (sequence : String) : String :=
  let columns := ", ".intercalate (c.sequenceColumn :: c.columns)
  let values := ", ".intercalate (sequence :: c.values)
  s!"    INSERT INTO {c.logTable} ({columns})\n    VALUES ({values});\n"

def renderTriggerHead (t : CaptureTrigger) : String :=
  s!"{t.name} AFTER {renderEvent t.capture.eventType} ON {t.watchedTable} FOR EACH ROW"

def render : Dialect → Ddl → String
  | .sqlite, createCounter =>
    s!"CREATE TABLE IF NOT EXISTS {counterName} (id INTEGER PRIMARY KEY CHECK (id = 1), value INTEGER NOT NULL)"
  | .postgres, createCounter => s!"CREATE SEQUENCE IF NOT EXISTS {counterName}"
  | .mySql, createCounter => s!"CREATE TABLE IF NOT EXISTS {counterName} (id BIGINT NOT NULL)"
  | .mySql, seedCounter =>
    s!"INSERT INTO {counterName} (id) SELECT 0 FROM DUAL WHERE NOT EXISTS (SELECT 1 FROM {counterName})"
  | _, seedCounter => s!"INSERT OR IGNORE INTO {counterName} (id, value) VALUES (1, 0)"
  | .postgres, dropCounter => s!"DROP SEQUENCE IF EXISTS {counterName}"
  | _, dropCounter => s!"DROP TABLE IF EXISTS {counterName}"
  | d, createLogTable table columns =>
    let columns := ", ".intercalate (columns.map (renderColumn d))
    s!"CREATE TABLE IF NOT EXISTS {table} ({columns})"
  | _, replaceFunction function capture =>
    s!"CREATE OR REPLACE FUNCTION {function}() RETURNS TRIGGER AS $$\nBEGIN\n" ++
      renderInsert capture s!"nextval('{counterName}')" ++
      "    RETURN NULL;\nEND;\n$$ LANGUAGE plpgsql"
  | .sqlite, createTrigger t =>
    s!"CREATE TRIGGER IF NOT EXISTS {renderTriggerHead t}\nBEGIN\n    UPDATE {counterName} SET value = value + 1 WHERE id = 1;\n" ++
      renderInsert t.capture s!"(SELECT value FROM {counterName} WHERE id = 1)" ++ "END"
  | .mySql, createTrigger t =>
    s!"CREATE TRIGGER IF NOT EXISTS {renderTriggerHead t}\nBEGIN\n    UPDATE {counterName} SET id = LAST_INSERT_ID(id + 1);\n" ++
      renderInsert t.capture "LAST_INSERT_ID()" ++ "END"
  | .postgres, createTrigger t =>
    s!"CREATE TRIGGER {renderTriggerHead t} EXECUTE PROCEDURE {functionName t.watchedTable t.capture.eventType}()"
  | .postgres, dropTrigger trigger table => s!"DROP TRIGGER IF EXISTS {trigger} ON {table}"
  | _, dropTrigger trigger _ => s!"DROP TRIGGER IF EXISTS {trigger}"
  | _, dropFunction function => s!"DROP FUNCTION IF EXISTS {function}()"

end Ddl

end ChangeFeed
