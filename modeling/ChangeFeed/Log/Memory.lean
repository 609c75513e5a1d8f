import ChangeFeed.Log.Store

namespace ChangeFeed

/-- One counter stamps the rows of all tables. -/
structure MemoryLog where
  tables : SortedMap String (SortedMap Int64 LogRow) := ∅
  /-- The greatest sequence id handed out or inserted so far. -/
  sequence : Int64 := 0
  deriving DecidableEq

namespace MemoryLog

def table (log : MemoryLog) (name : String) : SortedMap Int64 LogRow :=
  (log.tables.get? name).getD ∅

def put (log : MemoryLog) (name : String) (row : LogRow) : MemoryLog :=
  { log with tables := log.tables.insert name ((log.table name).insert row.sequence row) }

/-- Records a change under a fresh sequence id. The values go to the id columns in order. -/
def record (log : MemoryLog) (m : LogModel) (eventType : EventType) (values : List IdValue) :
    Except Failure (Int64 × MemoryLog) :=
  let columns := m.logColumns
  if columns.length ≠ values.length then
    .error (.idCount m.logTable columns.length values.length)
  else
    let sequence := log.sequence + 1
    let row := ⟨sequence, eventType.code, .ofList (columns.zip values)⟩
    .ok (sequence, { log with sequence }.put m.logTable row)

/-- Puts a row that has a sequence id already. Later rows are stamped above it. -/
def insertRow (log : MemoryLog) (name : String) (row : LogRow) : MemoryLog :=
  { log with sequence := max log.sequence row.sequence }.put name row

def pending (log : MemoryLog) (name : String) : List LogRow := (log.table name).values

def pendingCount (log : MemoryLog) : Nat := log.tables.values.foldl (fun n rows => n + rows.size) 0

/-- The least sequence id that comes after another. The greatest id is taken to come after
itself. -/
def successor (n : Int64) : Int64 := if n = Int64.maxValue then n else n + 1

/-- A transaction: the store as it was, and the rows deleted so far, as table and sequence id. -/
structure Tx where
  log : MemoryLog
  deleted : List (String × Int64) := []
  deriving DecidableEq

namespace Tx

def visible (tx : Tx) (name : String) : List LogRow :=
  (tx.log.pending name).filter fun r => (name, r.sequence) ∉ tx.deleted

def window (tx : Tx) (name : String) (after : Option Int64) (limit : Nat) : List LogRow :=
  ((tx.visible name).filter fun r => after.all (successor · ≤ r.sequence)).take limit

def delete (tx : Tx) (name : String) : List Int64 → Nat × Tx
  | [] => (0, tx)
  | n :: rest =>
    if (tx.log.table name).contains n ∧ (name, n) ∉ tx.deleted then
      let (count, tx) := { tx with deleted := (name, n) :: tx.deleted }.delete name rest
      (count + 1, tx)
    else tx.delete name rest

def commit (tx : Tx) : MemoryLog :=
  { tx.log with
    tables := tx.log.tables.mapValues fun name rows =>
      rows.filter fun n _ => (name, n) ∉ tx.deleted }

end Tx

def store : LogStore Tx where
  start := modify fun tx => { tx with deleted := [] }
  fetch m after limit := return (← get).window m.logTable after limit
  delete m ids := modifyGet (·.delete m.logTable ids)
  commit := modify fun tx => ⟨tx.commit, []⟩
  rollback := modify fun tx => { tx with deleted := [] }
  abandon tx := { tx with deleted := [] }

end MemoryLog

end ChangeFeed
