import ChangeFeed.Capture.Install
import ChangeFeed.ChangeEvent
import ChangeFeed.Containment
import ChangeFeed.Document
import ChangeFeed.Json.Tree
import ChangeFeed.SourceState

namespace ChangeFeed

namespace EventType

def toData (e : EventType) : Data := .text e.name

def ofTree? {ν : Type} [Tree ν] : ν → Option EventType := Tree.oneOf? all name

end EventType

namespace SourceState

def toData (s : SourceState) : Data := .text s.name

def ofTree? {ν : Type} [Tree ν] : ν → Option SourceState := Tree.oneOf? all name

end SourceState

namespace InstallStrategy

def toData (s : InstallStrategy) : Data := .text s.name

def ofTree? {ν : Type} [Tree ν] : ν → Option InstallStrategy := Tree.oneOf? all name

end InstallStrategy

namespace Dialect

def writtenName : Dialect → String
  | mySql => "my_sql"
  | d => d.name

def toData (d : Dialect) : Data := .text d.writtenName

def ofTree? {ν : Type} [Tree ν] : ν → Option Dialect := Tree.oneOf? all writtenName

end Dialect

namespace ColumnType

def toData (t : ColumnType) : Data := .text t.name

def ofTree? {ν : Type} [Tree ν] : ν → Option ColumnType := Tree.oneOf? all name

end ColumnType

namespace IdMapping

def toData (m : IdMapping) : Data :=
  .record [
    ("entity_type", .text m.entityType),
    ("log_columns", .ofTexts m.logColumns),
    ("original_columns", .ofTexts m.watchedColumns),
    ("column_type", m.columnType.toData)]

def ofTree? {ν : Type} [Tree ν] (t : ν) : Option IdMapping := do
  let [entityType, logColumns, watchedColumns, columnType] ←
    Tree.fields true ["entity_type", "log_columns", "original_columns", "column_type"] t | none
  return {
    entityType := ← entityType >>= Tree.text?
    logColumns := ← logColumns >>= Tree.texts?
    watchedColumns := ← watchedColumns >>= Tree.texts?
    columnType := ← Tree.orElse columnType .integer ColumnType.ofTree? }

end IdMapping

namespace LogModel

def toData (m : LogModel) : Data :=
  .record [
    ("update_table", .text m.logTable),
    ("original_table", .text m.watchedTable),
    ("sequence_column", .text m.sequenceColumn),
    ("event_type_column", .text m.eventColumn),
    ("ids", .list (m.ids.map IdMapping.toData))]

def ofTree? {ν : Type} [Tree ν] (t : ν) : Option LogModel := do
  let [logTable, watchedTable, sequenceColumn, eventColumn, ids] ←
    Tree.fields true
      ["update_table", "original_table", "sequence_column", "event_type_column", "ids"] t | none
  return {
    logTable := ← logTable >>= Tree.text?
    watchedTable := ← watchedTable >>= Tree.text?
    sequenceColumn := ← Tree.orElse sequenceColumn "update_id" Tree.text?
    eventColumn := ← Tree.orElse eventColumn "event_case" Tree.text?
    ids := ← ids >>= Tree.list? IdMapping.ofTree? }

end LogModel

namespace IdValue

def toData : IdValue → Data
  | integer n => .int n.toInt
  | text s => .text s

def ofJson? : Json → Option IdValue
  | .int n =>
    if Int64.minValue.toInt ≤ n ∧ n ≤ Int64.maxValue.toInt then some (integer (.ofInt n)) else none
  | .string s => s.map text
  | _ => none

end IdValue

namespace EntityId

def toData (i : EntityId) : Data := .list (i.values.map IdValue.toData)

def ofJson? (t : Json) : Option EntityId := EntityId.mk <$> Tree.list? IdValue.ofJson? t

end EntityId

namespace ChangeEvent

def toData (e : ChangeEvent) : Data :=
  .record [
    ("entity_type", .text e.entityType),
    ("id", e.id.toData),
    ("event_type", e.eventType.toData)]

def ofJson? (t : Json) : Option ChangeEvent := do
  let [entityType, id, eventType] ←
    Tree.fields false ["entity_type", "id", "event_type"] t | none
  return {
    entityType := ← entityType >>= Tree.text?
    id := ← id >>= EntityId.ofJson?
    eventType := ← eventType >>= EventType.ofTree? }

end ChangeEvent

namespace Document

def toData (d : Document) : Data :=
  .record [
    ("entity_type", .text d.entityType),
    ("id", d.id.toData),
    ("fields", .record (d.fields.toList.map fun f => (f.1, .ofTexts f.2)))]

/-- Fields by their names. Of several fields with one name the last counts. -/
def fieldsOfJson? (t : Json) : Option (SortedMap String (List String)) := do
  let members ← Tree.members? t
  return .ofList (← members.mapM fun m => return (← m.1, ← Tree.texts? m.2))

def ofJson? (t : Json) : Option Document := do
  let [entityType, id, fields] ← Tree.fields false ["entity_type", "id", "fields"] t | none
  return {
    entityType := ← entityType >>= Tree.text?
    id := ← id >>= EntityId.ofJson?
    fields := ← Tree.orElse fields ∅ fieldsOfJson? }

end Document

namespace RootLookup

def toData (l : RootLookup) : Data :=
  .record [
    ("root_type", .text l.rootType),
    ("direct", .bool l.direct),
    ("id_fields", .ofTexts l.idFields)]

def ofJson? (t : Json) : Option RootLookup := do
  let [rootType, direct, idFields] ←
    Tree.fields false ["root_type", "direct", "id_fields"] t | none
  return {
    rootType := ← rootType >>= Tree.text?
    direct := ← direct >>= Json.flag?
    idFields := ← idFields >>= Tree.texts? }

end RootLookup

namespace ContainmentEntry

def toData (e : ContainmentEntry) : Data :=
  .record [("entity_type", .text e.entityType), ("roots", .list (e.roots.map RootLookup.toData))]

def ofJson? (t : Json) : Option ContainmentEntry := do
  let [entityType, roots] ← Tree.fields false ["entity_type", "roots"] t | none
  return {
    entityType := ← entityType >>= Tree.text?
    roots := ← roots >>= Tree.list? RootLookup.ofJson? }

end ContainmentEntry

end ChangeFeed
