import ChangeFeed.Capture.Ddl
import ChangeFeed.Sql.Table

namespace ChangeFeed.Sql

structure Clock where
  date : String := "1970-01-01"
  time : String := "00:00:00"
  deriving DecidableEq

/-- Tables and capture triggers. A statement takes effect as a whole or not at all, and all names that
it and its triggers use are looked up before any row is touched. Triggers run once per changed row, the
newest first; a trigger does not set itself off again. -/
structure Database where
  /-- The tables, under their folded names. -/
  tables : SortedMap String Table := ∅
  /-- The triggers, newest first. -/
  triggers : List CaptureTrigger := []
  clock : Clock := {}
  deriving DecidableEq

inductive Assignment where
  | value (v : Value)
  | increment
  deriving DecidableEq

inductive Change where
  /-- With `orIgnore`, a row that breaks a constraint is left out. -/
  | insert (orIgnore : Bool) (table : String) (cells : List (String × Value))
  | update (table : String) (assignments : List (String × Assignment))
      (conditions : List Condition)
  | delete (table : String) (conditions : List Condition)

namespace Change

def eventType : Change → EventType
  | insert .. => .insert
  | update .. => .update
  | delete .. => .delete

def table : Change → String
  | insert _ table _ | update table _ _ | delete table _ => table

end Change

namespace Database

def table? (db : Database) (name : String) : Option Table := db.tables.get? (foldCase name)

def setTable (db : Database) (t : Table) : Database :=
  { db with tables := db.tables.insert (foldCase t.name) t }

def triggersOn (db : Database) (table : String) (eventType : EventType) : List CaptureTrigger :=
  db.triggers.filter fun g => sameName g.watchedTable table && g.capture.eventType = eventType

def find (db : Database) (qualifier name : String) : Except SqlError Table :=
  match db.table? name with
  | some t => .ok t
  | none => .error (.noSuchTable (qualifier ++ name))

def requireColumns (t : Table) (error : String → SqlError) (names : List String) :
    Except SqlError Unit :=
  match names.find? fun n => !t.hasColumn n with
  | some n => .error (error n)
  | none => .ok ()

def requireNames (db : Database) (qualifier : String) (c : Change) : Except SqlError Table := do
  let t ← db.find qualifier c.table
  match c with
  | .insert _ table cells => requireColumns t (.noColumnNamed table) (cells.map (·.1))
  | .update _ assignments conditions =>
    requireColumns t .noSuchColumn (assignments.map (·.1) ++ conditions.map (·.1))
  | .delete _ conditions => requireColumns t .noSuchColumn (conditions.map (·.1))
  return t

def countUp : Change := .update counterName [("value", .increment)] [("id", [.integer 1])]

def logInsert (c : Capture) (sequence : Value) (read : String → Value) : Change :=
  .insert false c.logTable <|
    (c.sequenceColumn, sequence) :: c.copied.map (fun p => (p.1, read p.2)) ++
      [(c.eventColumn, .integer c.eventType.code)]

/-- Looks up all names in a change and in the triggers that it can set off, so many levels deep. -/
def resolve (db : Database) : Nat → String → List String → Change → Except SqlError Unit
  | 0, qualifier, _, c => do let _ ← db.requireNames qualifier c
  | fuel + 1, qualifier, active, c => do
    let t ← db.requireNames qualifier c
    (db.triggersOn c.table c.eventType).forM fun g =>
      if g.name ∈ active then .ok ()
      else do
        let active := g.name :: active
        db.resolve fuel "main." active countUp
        let insert := logInsert g.capture .null fun _ => .null
        let _ ← db.requireNames "main." insert
        requireColumns t (fun n => .noSuchColumn s!"{rowAlias g.capture.eventType}.{n}")
          (g.capture.copied.map (·.2))
        db.resolve fuel "main." active insert

def counterValue (db : Database) : Value :=
  match db.table? counterName with
  | none => .null
  | some t =>
    match t.select [("id", [.integer 1])] with
    | [] => .null
    | id :: _ => t.read id ((t.rows.get? id).getD []) "value"

def isConstraint : SqlError → Bool
  | .unique .. | .notNull .. | .check _ => true
  | _ => false

abbrev AfterRow := Database → Table → Int64 → Row → Except SqlError Database

def assigned (t : Table) (row : Row) (assignments : List (String × Assignment)) : Row :=
  (t.columns.zip row).map fun c =>
    match assignments.find? fun a => sameName a.1 c.1.name with
    | some (_, .value v) => v
    | some (_, .increment) => c.2.plusOne
    | none => c.2

def updateRow (after : AfterRow) (table : String) (assignments : List (String × Assignment))
    (r : Database × Nat) (id : Int64) : Except SqlError (Database × Nat) := do
  let t ← r.1.find "" table
  match t.rows.get? id with
  | none => return r
  | some row =>
    let (t, id, row) ← t.replace id (assigned t row assignments)
    return (← after (r.1.setTable t) t id row, r.2 + 1)

def deleteRow (after : AfterRow) (table : String) (r : Database × Nat) (id : Int64) :
    Except SqlError (Database × Nat) := do
  let t ← r.1.find "" table
  match t.rows.get? id with
  | none => return r
  | some row => return (← after (r.1.setTable (t.remove id)) t id row, r.2 + 1)

/-- Changes the rows one after the other, and tells how many there were. The rows are chosen before
the first of them is changed. -/
def applyChange (after : AfterRow) (db : Database) (c : Change) :
    Except SqlError (Database × Nat) := do
  let t ← db.find "" c.table
  match c with
  | .insert orIgnore _ cells =>
    let values := t.columns.map fun c =>
      match cells.find? fun cell => sameName cell.1 c.name with
      | some cell => cell.2
      | none => .null
    match t.insert values with
    | .ok (t, id, row) => return (← after (db.setTable t) t id row, 1)
    | .error e => if orIgnore && isConstraint e then return (db, 0) else throw e
  | .update table assignments conditions =>
    (t.select conditions).foldlM (updateRow after table assignments) (db, 0)
  | .delete table conditions => (t.select conditions).foldlM (deleteRow after table) (db, 0)

def capture (run : Database → Change → Except SqlError (Database × Nat)) (c : Capture)
    (db : Database) (t : Table) (id : Int64) (row : Row) : Except SqlError Database := do
  let (db, _) ← run db countUp
  let (db, _) ← run db (logInsert c db.counterValue (t.read id row))
  return db

/-- Applies a change and all that it sets off, so many levels deep. As no trigger is active twice,
there are no more levels than triggers. -/
def applyWithTriggers : Nat → List String → Database → Change → Except SqlError (Database × Nat)
  | 0, _, db, c => applyChange (fun db _ _ _ => .ok db) db c
  | fuel + 1, active, db, c =>
    applyChange (fun db t id row =>
      (db.triggersOn t.name c.eventType).foldlM (fun db g =>
        if g.name ∈ active then .ok db
        else capture (applyWithTriggers fuel (g.name :: active)) g.capture db t id row) db) db c

def change (db : Database) (c : Change) : Except SqlError (Database × Nat) := do
  let levels := db.triggers.length
  db.resolve levels "" [] c
  applyWithTriggers levels [] db c

def createTable (db : Database) (ifNotExists : Bool) (t : Table) : Except SqlError Database :=
  if (foldCase t.name).startsWith "sqlite_" then .error (.reservedName t.name)
  else if (db.table? t.name).isSome then
    if ifNotExists then .ok db else .error (.tableExists t.name)
  else
    match repeated [] t.columns with
    | some name => .error (.duplicateColumn name)
    | none => .ok (db.setTable t)
where
  repeated : List String → List Column → Option String
    | _, [] => none
    | seen, c :: rest =>
      if foldCase c.name ∈ seen then some c.name else repeated (foldCase c.name :: seen) rest

/-- Creates a trigger unless there is one of that name. The watched table must exist. -/
def createTrigger (db : Database) (g : CaptureTrigger) : Except SqlError Database :=
  if (db.table? g.watchedTable).isNone then .error (.noSuchTable ("main." ++ g.watchedTable))
  else if db.triggers.any fun h => sameName h.name g.name then .ok db
  else .ok { db with triggers := g :: db.triggers }

def dropTable (db : Database) (ifExists : Bool) (name : String) : Except SqlError Database :=
  if (db.table? name).isNone then (if ifExists then .ok db else .error (.noSuchTable name))
  else .ok { db with
    tables := db.tables.erase (foldCase name)
    triggers := db.triggers.filter fun g => !sameName g.watchedTable name }

def dropTrigger (db : Database) (ifExists : Bool) (name : String) : Except SqlError Database :=
  if db.triggers.any fun g => sameName g.name name then
    .ok { db with triggers := db.triggers.filter fun g => !sameName g.name name }
  else if ifExists then .ok db
  else .error (.noSuchTrigger name)

def objects (db : Database) : List (String × String) :=
  (sortDistinct (db.tables.values.map (·.name))).map (("table", ·)) ++
    (sortDistinct (db.triggers.map (·.name))).map (("trigger", ·))

end Database

end ChangeFeed.Sql
