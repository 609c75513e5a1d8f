import ChangeFeed.Sql.Capture

namespace ChangeFeed.Sql

namespace Script

inductive Lexeme where
  | word (s : String)
  | quoted (s : String)
  | text (s : String)
  | number (v : Value)
  | symbol (c : Char)
  deriving DecidableEq

def isWordStart (c : Char) : Bool := c.isAlpha || c == '_' || 128 ≤ c.toNat

def isWordPart (c : Char) : Bool := isWordStart c || c.isDigit || c == '$'

def isBlank (c : Char) : Bool := c == ' ' || ('\t' ≤ c && c ≤ '\r')

def readQuoted (quote : Char) : List Char → Option (List Char × List Char)
  | [] => none
  | c :: rest =>
    if c ≠ quote then (readQuoted quote rest).map fun r => (c :: r.1, r.2)
    else match rest with
      | d :: more =>
        if d = quote then (readQuoted quote more).map fun r => (quote :: r.1, r.2)
        else some ([], d :: more)
      | [] => some ([], [])

def readLexeme (cs : List Char) : Option (Lexeme × List Char) :=
  match cs with
  | [] => none
  | c :: rest =>
    if isWordStart c then
      some (.word (String.ofList (cs.takeWhile isWordPart)), cs.dropWhile isWordPart)
    else if c = '\'' then (readQuoted c rest).map fun r => (.text (String.ofList r.1), r.2)
    else if c = '"' ∨ c = '\x60' then
      (readQuoted c rest).map fun r => (.quoted (String.ofList r.1), r.2)
    else if c.isDigit then do
      let (d, rest) ← Decimal.readFront cs
      return (.number (← Value.ofNumber d), rest)
    else some (.symbol c, rest)

def lexemes : Nat → List Char → Option (List Lexeme)
  | 0, _ => none
  | fuel + 1, cs =>
    match cs.dropWhile isBlank with
    | [] => some []
    | '-' :: '-' :: rest => lexemes fuel (rest.dropWhile (· ≠ '\n'))
    | cs => do
      let (l, rest) ← readLexeme cs
      return l :: (← lexemes fuel rest)

abbrev Reader (α : Type) := StateT (List Lexeme) Option α

def peek : Reader (Option Lexeme) := return (← get).head?

def advance : Reader Unit := modify List.tail

def keyword? (k : String) : Reader Bool := do
  match ← peek with
  | some (.word w) => if foldCase w = k then advance; return true else return false
  | _ => return false

def keyword (k : String) : Reader Unit := do if !(← keyword? k) then failure

def symbol? (c : Char) : Reader Bool := do
  if (← peek) = some (.symbol c) then advance; return true
  else return false

def symbol (c : Char) : Reader Unit := do if !(← symbol? c) then failure

def name : Reader String := do
  match ← peek with
  | some (.word w) => if isReserved w then failure else advance; return w
  | some (.quoted w) => advance; return w
  | _ => failure

def value : Reader Value := do
  let negative ← symbol? '-'
  match ← peek with
  | some (.number (.integer n)) => advance; return .integer (if negative then -n else n)
  | some (.number (.real d)) => advance; return .real { d with negative }
  | some (.text s) => if negative then failure else advance; return .text s
  | _ => if negative then failure else keyword "null"; return .null

def commaList {α : Type} (item : Reader α) : Nat → Reader (List α)
  | 0 => failure
  | fuel + 1 => do
    let x ← item
    if ← symbol? ',' then return x :: (← commaList item fuel) else return [x]

def typeWords : Nat → Reader (List String)
  | 0 => return []
  | fuel + 1 => do
    match ← peek with
    | some (.word w) =>
      if isReserved w then return []
      else
        advance
        return w :: (← typeWords fuel)
    | _ => return []

def constraints (type : String) : Nat → Column → Reader Column
  | 0, _ => failure
  | fuel + 1, c => do
    if ← keyword? "primary" then
      keyword "key"
      if foldCase type = "integer" then constraints type fuel { c with isRowId := true }
      else constraints type fuel { c with unique := true }
    else if ← keyword? "not" then
      keyword "null"
      constraints type fuel { c with notNull := true }
    else if ← keyword? "unique" then constraints type fuel { c with unique := true }
    else if ← keyword? "check" then
      symbol '('
      let _ ← name
      symbol '='
      let v ← value
      symbol ')'
      match v with
      | .integer n => constraints type fuel { c with only := some n }
      | _ => failure
    else return c

def declaration (columnName : String) (fuel : Nat) : Reader Column := do
  let type := " ".intercalate (← typeWords fuel)
  constraints type fuel { name := columnName, affinity := .ofDeclaration type }

def equation : Reader (String × Value) := do
  let column ← name
  symbol '='
  return (column, ← value)

def conjunction : Nat → Reader (List Condition)
  | 0 => failure
  | fuel + 1 => do
    let (column, v) ← equation
    if ← keyword? "and" then return (column, [v]) :: (← conjunction fuel)
    else return [(column, [v])]

def conditions (fuel : Nat) : Reader (List Condition) := do
  if ← keyword? "where" then conjunction fuel else return []

inductive Statement where
  | createTable (ifNotExists : Bool) (t : Table)
  | dropTable (ifExists : Bool) (name : String)
  | dropTrigger (ifExists : Bool) (name : String)
  | change (c : Change)

def ifExists : Reader Bool := do
  if ← keyword? "if" then keyword "exists"; return true
  else return false

def ifNotExists : Reader Bool := do
  if ← keyword? "if" then keyword "not"; keyword "exists"; return true
  else return false

def createTable (fuel : Nat) : Reader Statement := do
  let guarded ← ifNotExists
  let table ← name
  symbol '('
  let columns ← commaList (do declaration (← name) fuel) fuel
  symbol ')'
  return .createTable guarded { name := table, columns }

def insert (fuel : Nat) : Reader Statement := do
  let orIgnore ← keyword? "or"
  if orIgnore then keyword "ignore"
  keyword "into"
  let table ← name
  symbol '('
  let columns ← commaList name fuel
  symbol ')'
  keyword "values"
  symbol '('
  let values ← commaList value fuel
  symbol ')'
  if columns.length ≠ values.length then failure
  return .change (.insert orIgnore table (columns.zip values))

def update (fuel : Nat) : Reader Statement := do
  let table ← name
  keyword "set"
  let assignments ← commaList equation fuel
  return .change (.update table (assignments.map fun a => (a.1, .value a.2)) (← conditions fuel))

def delete (fuel : Nat) : Reader Statement := do
  keyword "from"
  let table ← name
  return .change (.delete table (← conditions fuel))

def statement (fuel : Nat) : Reader Statement := do
  if ← keyword? "create" then keyword "table"; createTable fuel
  else if ← keyword? "drop" then
    if ← keyword? "table" then return .dropTable (← ifExists) (← name)
    else
      keyword "trigger"
      return .dropTrigger (← ifExists) (← name)
  else if ← keyword? "insert" then insert fuel
  else if ← keyword? "update" then update fuel
  else
    keyword "delete"
    delete fuel

def statements : Nat → Reader (List Statement)
  | 0 => failure
  | fuel + 1 => do
    if (← peek).isNone then return []
    else if ← symbol? ';' then statements fuel
    else
      let s ← statement fuel
      if (← peek).isSome then symbol ';'
      return s :: (← statements fuel)

def parse (text : String) : Option (List Statement) := do
  let ls ← lexemes (text.length + 1) text.toList
  (statements (ls.length + 2)).run' ls

end Script

namespace Database

def runStatement (db : Database) : Script.Statement → Except SqlError Database
  | .createTable ifNotExists t => db.createTable ifNotExists t
  | .dropTable ifExists name => db.dropTable ifExists name
  | .dropTrigger ifExists name => db.dropTrigger ifExists name
  | .change c => do return (← db.change c).1

def runScript (db : Database) (text : String) : Except SqlError Database :=
  match Script.parse text with
  | none => .error .incomplete
  | some statements => statements.foldlM runStatement db

end Database

end ChangeFeed.Sql
