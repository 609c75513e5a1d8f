import ChangeFeed.Capture.Install
import ChangeFeed.Chunks
import ChangeFeed.Log.Store
import ChangeFeed.Sql.Capture

namespace ChangeFeed

open Sql

/-- A database, and as it was before the transaction that is open. -/
structure SqlLog where
  db : Database := {}
  saved : Option Database := none
  deriving DecidableEq

namespace SqlLog

def deletePortion : Nat := 500

inductive Role where
  | table
  | column
  | firstColumn
  deriving DecidableEq

/-- A name in a query, where it stands, and the token that follows it. -/
structure Mention where
  role : Role
  name : String
  offset : Nat
  next : String

structure Query where
  text : String
  table : String
  mentions : List Mention

namespace Mention

def nextOffset (c : Mention) : Nat := c.offset + c.name.length + (if c.next = "," then 0 else 1)

/-- The words that need more than a name to come after them. -/
def openers (c : Mention) : List String :=
  match c.role with
  | .table => []
  | .column => openingWords
  | .firstColumn => "all" :: "distinct" :: openingWords

/-- The token at which the text is no query, and its offset. -/
def fault? (c : Mention) : Option (String × Nat) :=
  if foldCase c.name ∈ c.openers then some (c.next, c.nextOffset)
  else if isReserved c.name && (c.role = .table || foldCase c.name ∉ valueWords) then
    some (c.name, c.offset)
  else none

def ofColumns (last : String) : Nat → List String → List Mention
  | _, [] => []
  | offset, [name] => [⟨.column, name, offset, last⟩]
  | offset, name :: rest =>
    ⟨.column, name, offset, ","⟩ :: ofColumns last (offset + name.length + 2) rest

end Mention

def readColumns (m : LogModel) : List String := m.sequenceColumn :: m.eventColumn :: m.logColumns

def windowQuery (m : LogModel) : Query :=
  let columns := ", ".intercalate (readColumns m)
  let s := m.sequenceColumn
  { text := s!"SELECT {columns} FROM {m.logTable} WHERE {s} > ?1 ORDER BY {s} LIMIT ?2"
    table := m.logTable
    mentions :=
      ⟨.firstColumn, s, 7, ","⟩ ::
        Mention.ofColumns "FROM" (7 + s.length + 2) (m.eventColumn :: m.logColumns) ++
          [⟨.table, m.logTable, 7 + columns.length + 6, "WHERE"⟩] }

def deleteQuery (m : LogModel) (count : Nat) : Query :=
  let marks := ", ".intercalate (List.replicate count "?")
  { text := s!"DELETE FROM {m.logTable} WHERE {m.sequenceColumn} IN ({marks})"
    table := m.logTable
    mentions :=
      [⟨.table, m.logTable, 12, "WHERE"⟩,
       ⟨.column, m.sequenceColumn, 12 + m.logTable.length + 7, "IN"⟩] }

def countQuery (m : LogModel) : Query :=
  { text := s!"SELECT COUNT(*) FROM {m.logTable}"
    table := m.logTable
    mentions := [⟨.table, m.logTable, 21, ""⟩] }

/-- The table of a query, if the text is one, and the table and all columns are there. -/
def Query.open (q : Query) (db : Database) : Except SqlError Table :=
  match q.mentions.findSome? Mention.fault? with
  | some (token, offset) => .error (.located (.syntaxAt token) q.text offset)
  | none => do
    let t ← db.find "" q.table
    match q.mentions.find? fun c =>
      c.role ≠ .table && (db.valueOf? c.name).isNone && !t.hasColumn c.name with
    | some c => throw (.located (.noSuchColumn c.name) q.text c.offset)
    | none => return t

def evaluate (db : Database) (t : Table) (r : Int64 × Row) (name : String) : Value :=
  (db.valueOf? name).getD (t.read r.1 r.2 name)

def readInteger (db : Database) (t : Table) (r : Int64 × Row) (position : Nat) (column : String) :
    Except SqlError Int64 :=
  match evaluate db t r column with
  | .integer n => .ok n
  | v =>
    let declared := if (db.valueOf? column).isSome then none else t.column? column
    .error (.columnType v.className position ((declared.map (·.name)).getD column))

structure RawRow where
  sequence : Int64
  code : Int64
  values : List (String × Value)

def readRow (m : LogModel) (db : Database) (t : Table) (r : Int64 × Row) :
    Except SqlError RawRow := do
  return {
    sequence := ← readInteger db t r 0 m.sequenceColumn
    code := ← readInteger db t r 1 m.eventColumn
    values := m.logColumns.map fun c => (c, evaluate db t r c) }

/-- The id that a column holds, which nothing is not. -/
def idValue (m : LogModel) (column : String) : Value → Except Failure (Option IdValue)
  | .null => .ok none
  | .integer n => .ok (some (.integer n))
  | .text s => .ok (some (.text s))
  | v => .error (.unsupportedId v m.logTable column)

def decodeRow (m : LogModel) (r : RawRow) : Except Failure LogRow := do
  let columns ← r.values.mapM fun c => return (c.1, ← idValue m c.1 c.2)
  return {
    sequence := r.sequence
    code := r.code
    columns := .ofList (columns.filterMap fun c => c.2.map (c.1, ·)) }

def rowsAfter (m : LogModel) (db : Database) (t : Table) (bound : Int64) : List (Int64 × Row) :=
  let sequence (r : Int64 × Row) := evaluate db t r m.sequenceColumn
  let bound :=
    if (db.valueOf? m.sequenceColumn).isSome then .integer bound
    else (t.affinityOf m.sequenceColumn).apply (.integer bound)
  let later := t.rows.toList.filter fun r => sequence r ≠ .null && compare (sequence r) bound == .gt
  later.mergeSort fun a b => (compare (sequence a) (sequence b)).isLE

def ofModel {α : Type} : Except ModelError α → Except Failure α
  | .ok x => .ok x
  | .error e => .error (.model e)

def ofSql {α : Type} : Except SqlError α → Except Failure α
  | .ok x => .ok x
  | .error e => .error (.sql e)

/-- The first rows after a sequence id. Without one, all rows but that with the least id there is
come after. -/
def window (db : Database) (m : LogModel) (after : Option Int64) (limit : Nat) :
    Except Failure (List LogRow) := do
  ofModel m.validateNames
  let t ← ofSql ((windowQuery m).open db)
  let raw ← ofSql <|
    ((rowsAfter m db t (after.getD Int64.minValue)).take limit).mapM (readRow m db t)
  raw.mapM (decodeRow m)

/-- That the sequence id is one of some. What is not read from the row is none of them. -/
def hasSequence (m : LogModel) (db : Database) (ids : List Int64) : Condition :=
  if (db.valueOf? m.sequenceColumn).isSome then ("rowid", [])
  else (m.sequenceColumn, ids.map .integer)

def deleteRows (m : LogModel) (ids : List Int64) : Act SqlLog Nat := do
  let log ← get
  let _ ← Act.ofExcept (ofSql ((deleteQuery m ids.length).open log.db))
  let (db, count) ← Act.ofExcept <| ofSql <|
    log.db.change (.delete m.logTable [hasSequence m log.db ids])
  set { log with db }
  return count

def abandon (log : SqlLog) : SqlLog := ⟨log.saved.getD log.db, none⟩

def store : LogStore SqlLog where
  start := modify fun log => { log with saved := some log.db }
  fetch m after limit := do Act.ofExcept (window (← get).db m after limit)
  delete m ids := do
    Act.ofExcept (ofModel m.validateNames)
    (chunks deletePortion ids).foldlM (fun count ids => return count + (← deleteRows m ids)) 0
  commit := modify fun log => { log with saved := none }
  rollback := modify abandon
  abandon := abandon

def pendingRows (db : Database) (m : LogModel) : Except Failure Nat := do
  ofModel m.validateNames
  return (← ofSql ((countQuery m).open db)).rows.size

abbrev Statement := String × (Database → Except SqlError Database)

def firstLine (text : String) : String :=
  let line := text.toList.takeWhile (· ≠ '\n')
  let broken := line.length < text.length
  String.ofList (if broken && line.getLast? = some '\r' then line.dropLast else line)

/-- Runs all statements or none. The first that fails is reported by its first line. -/
def execute : Database → List Statement → Except Failure Database
  | db, [] => .ok db
  | db, (text, run) :: rest =>
    match run db with
    | .ok db => execute db rest
    | .error _ => .error (.ddl (firstLine text))

def statementOf (d : Ddl) : Statement := (d.render .sqlite, fun db => db.run d)

def install (db : Database) (models : List LogModel) (strategy : InstallStrategy) :
    Except Failure Database := do
  execute db ((← ofModel (Capture.install .sqlite models strategy)).map statementOf)

def uninstall (db : Database) (models : List LogModel) : Except Failure Database := do
  execute db ((← ofModel (Capture.uninstall .sqlite models)).map statementOf)

end SqlLog

end ChangeFeed
