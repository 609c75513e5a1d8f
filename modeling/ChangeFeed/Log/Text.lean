import ChangeFeed.Log.Sql
import ChangeFeed.Sql.Script

namespace ChangeFeed.SqlLog

open Sql

def executeTexts (db : Database) (texts : List String) : Except Failure Database :=
  execute db (texts.map fun text => (text, (·.runScript text)))

def tableText (table : String) (columns : List (String × String)) : String :=
  let parts := ", ".intercalate <| columns.map fun c =>
    if c.2 = "" then c.1 else c.1 ++ " " ++ c.2
  s!"CREATE TABLE {table} ({parts})"

def tableOffset : Nat := 13

def declareTable (db : Database) (table : String) (columns : List (String × String)) :
    Except Failure Database :=
  let text := tableText table columns
  match db.runScript text with
  | .ok db => .ok db
  | .error (.tableExists name) =>
    .error (.sql (.located (.tableExists name) text tableOffset))
  | .error e => .error (.sql e)

def change (c : Change) : Act SqlLog Nat := do
  let log ← get
  let (db, count) ← Act.ofExcept (ofSql (log.db.change c))
  set { log with db }
  return count

end ChangeFeed.SqlLog
