import ChangeFeed.Failure
import ChangeFeed.SortedMap
import ChangeFeed.Sql.Affinity

namespace ChangeFeed.Sql

def foldCase (name : String) : String := name.map Char.toLower

def sameName (a b : String) : Bool := foldCase a = foldCase b

structure Column where
  name : String
  affinity : Affinity
  notNull : Bool := false
  unique : Bool := false
  isRowId : Bool := false
  /-- The only value that the column may have, if there is one. -/
  only : Option Int64 := none
  deriving DecidableEq

abbrev Row := List Value

/-- A condition on a row: that a column has one of the given values. -/
abbrev Condition := String × List Value

/-- Columns, and rows under their row ids. An integer primary key is the row id. Names are compared
without regard to the case of ASCII letters. -/
structure Table where
  name : String
  columns : List Column
  rows : SortedMap Int64 Row := ∅
  deriving DecidableEq

namespace Table

variable (t : Table)

def column? (name : String) : Option Column := t.columns.find? fun c => sameName c.name name

def isRowIdName (name : String) : Bool := foldCase name ∈ ["rowid", "oid", "_rowid_"]

def hasColumn (name : String) : Bool := (t.column? name).isSome || isRowIdName name

def valueIn (row : Row) (name : String) : Option Value :=
  ((t.columns.zip row).find? fun c => sameName c.1.name name).map (·.2)

def read (id : Int64) (row : Row) (name : String) : Value :=
  match t.valueIn row name with
  | some v => v
  | none => if isRowIdName name then .integer id else .null

def affinityOf (name : String) : Affinity :=
  match t.column? name with
  | some c => c.affinity
  | none => .numeric

def freeIdBelow : Nat → Int64 → Except SqlError Int64
  | 0, _ => .error .full
  | fuel + 1, n => if t.rows.contains (n - 1) then freeIdBelow fuel (n - 1) else .ok (n - 1)

/-- The row id after the greatest one in use, or a free one if that is the greatest there is. -/
def nextId : Except SqlError Int64 :=
  match t.rows.keys.getLast? with
  | none => .ok 1
  | some n => if n = Int64.maxValue then t.freeIdBelow t.rows.size n else .ok (n + 1)

def idOf : Value → Except SqlError Int64
  | .null => t.nextId
  | v =>
    match Affinity.numeric.apply v with
    | .integer n => .ok n
    | _ => .error .datatypeMismatch

def chooseId (values : Row) : Except SqlError Int64 :=
  match (t.columns.zip values).find? (·.1.isRowId) with
  | some c => t.idOf c.2
  | none => t.nextId

def convert (id : Int64) (values : Row) : Row :=
  (t.columns.zip values).map fun c => if c.1.isRowId then .integer id else c.1.affinity.apply c.2

def checkRow (row : Row) : Except SqlError Unit :=
  let cells := t.columns.zip row
  match cells.find? fun c => c.1.notNull && !c.1.isRowId && c.2 = .null with
  | some c => .error (.notNull t.name c.1.name)
  | none =>
    match cells.findSome? fun c =>
      c.1.only.bind fun n => if c.2 = .null || c.2.meets (.integer n) then none else some (c.1, n) with
    | some (c, n) => .error (.check s!"{c.name} = {n}")
    | none => .ok ()

def isTaken (id : Int64) (c : Column) (v : Value) : Bool :=
  t.rows.toList.any fun r => r.1 ≠ id && (t.valueIn r.2 c.name).any (·.meets v)

def rowIdName : String := ((t.columns.find? (·.isRowId)).map (·.name)).getD "rowid"

/-- The constraints that a row, in place of the row `old`, has to meet beside the others. The row id
comes first, then the columns from the last to the first. -/
def checkUnique (old : Option Int64) (id : Int64) (row : Row) : Except SqlError Unit :=
  if old ≠ some id && t.rows.contains id then .error (.unique t.name t.rowIdName)
  else
    match (t.columns.zip row).reverse.find? fun c =>
      c.1.unique && t.isTaken (old.getD id) c.1 c.2 with
    | some c => .error (.unique t.name c.1.name)
    | none => .ok ()

def insert (values : Row) : Except SqlError (Table × Int64 × Row) := do
  let id ← t.chooseId values
  let row := t.convert id values
  t.checkRow row
  t.checkUnique none id row
  return ({ t with rows := t.rows.insert id row }, id, row)

/-- Gives a row other values. A row id cannot become nothing. -/
def replace (old : Int64) (values : Row) : Except SqlError (Table × Int64 × Row) := do
  let id ← match (t.columns.zip values).find? (·.1.isRowId) with
    | some (_, .null) => throw .datatypeMismatch
    | some c => t.idOf c.2
    | none => pure old
  let row := t.convert id values
  t.checkRow row
  t.checkUnique (some old) id row
  return ({ t with rows := (t.rows.erase old).insert id row }, id, row)

def remove (id : Int64) : Table := { t with rows := t.rows.erase id }

def satisfies (id : Int64) (row : Row) (conditions : List Condition) : Bool :=
  conditions.all fun c =>
    c.2.any fun v => (t.read id row c.1).meets ((t.affinityOf c.1).apply v)

def select (conditions : List Condition) : List Int64 :=
  (t.rows.toList.filter fun r => t.satisfies r.1 r.2 conditions).map (·.1)

end Table

end ChangeFeed.Sql
