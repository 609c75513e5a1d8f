import ChangeFeed.Sql.Database

namespace ChangeFeed.Sql

def reservedWords : List String :=
  ["add", "all", "alter", "and", "as", "autoincrement", "between", "case", "check", "collate",
   "commit", "constraint", "create", "default", "deferrable", "delete", "distinct", "drop", "else",
   "escape", "except", "exists", "foreign", "from", "group", "having", "in", "index", "insert",
   "intersect", "into", "is", "isnull", "join", "limit", "not", "nothing", "notnull", "null", "on",
   "or", "order", "primary", "references", "returning", "select", "set", "table", "then", "to",
   "transaction", "union", "unique", "update", "using", "values", "when", "where"]

def isReserved (name : String) : Bool := foldCase name ∈ reservedWords

def checkWords (names : List String) : Except SqlError Unit :=
  match names.find? isReserved with
  | some name => .error (.syntaxAt name)
  | none => .ok ()

/-- Words after which an expression goes on, so that the fault shows at the token after them. -/
def openingWords : List String := ["case", "cast", "exists", "not", "raise"]

def valueWords : List String := ["null", "current_date", "current_time", "current_timestamp"]

/-- Whether a query takes a name for a column. Words that are no columns in a query can still name
columns when a table is created. -/
def isColumnName (name : String) : Bool := foldCase name ∉ openingWords ++ valueWords

def counterTable : Table where
  name := counterName
  columns := [
    { name := "id", affinity := .numeric, isRowId := true, only := some 1 },
    { name := "value", affinity := .numeric, notNull := true }]

def seed : Change := .insert true counterName [("id", .integer 1), ("value", .integer 0)]

def logColumn (c : LogColumn) : Column :=
  match c.role with
  | .sequence => { name := c.name, affinity := .numeric, isRowId := true }
  | .id .integer required => { name := c.name, affinity := .numeric, notNull := required }
  | .id .text required => { name := c.name, affinity := .text, notNull := required }
  | .event => { name := c.name, affinity := .numeric, notNull := true }

def logTable (name : String) (columns : List LogColumn) : Table where
  name := name
  columns := columns.map logColumn

namespace Database

def valueOf? (db : Database) (word : String) : Option Value :=
  match foldCase word with
  | "null" => some .null
  | "current_date" => some (.text db.clock.date)
  | "current_time" => some (.text db.clock.time)
  | "current_timestamp" => some (.text (db.clock.date ++ " " ++ db.clock.time))
  | _ => none

/-- Runs a statement. Functions are unknown to the database. A table cannot be made under the name
`if`, which the statement kept for it would not be read back with. -/
def run (db : Database) : Ddl → Except SqlError Database
  | .createCounter => db.createTable true counterTable
  | .seedCounter => do return (← db.change seed).1
  | .dropCounter => db.dropTable true counterName
  | .createLogTable table columns =>
    if foldCase table = "if" && (db.table? table).isNone then .error (.syntaxAt "(")
    else do
      checkWords (table :: columns.map (·.name))
      db.createTable true (logTable table columns)
  | .createTrigger g => do
    let c := g.capture
    checkWords (g.watchedTable :: c.logTable :: c.sequenceColumn :: c.columns ++ c.copied.map (·.2))
    db.createTrigger g
  | .dropTrigger trigger _ => db.dropTrigger true trigger
  | .replaceFunction .. => .error (.syntaxAt "OR")
  | .dropFunction _ => .error (.syntaxAt "FUNCTION")

end Database

end ChangeFeed.Sql
