import ChangeFeed.Capture.Ddl

namespace ChangeFeed

/-- What installing does with triggers that exist already. -/
inductive InstallStrategy where
  | create
  | dropCreate
  | dontCreate
  deriving DecidableEq

namespace InstallStrategy

def all : List InstallStrategy := [create, dropCreate, dontCreate]

def name : InstallStrategy → String
  | create => "create"
  | dropCreate => "drop_create"
  | dontCreate => "dont_create"

end InstallStrategy

namespace Capture

def setup : Dialect → List Ddl
  | .postgres => [.createCounter]
  | .sqlite | .mySql => [.createCounter, .seedCounter]

def teardown : List Ddl := [.dropCounter]

def createLogTable (m : LogModel) : Except ModelError (List Ddl) := do
  m.validateNames
  return [.createLogTable m.logTable m.tableColumns]

def createTrigger (d : Dialect) (m : LogModel) (eventType : EventType) :
    Except ModelError (List Ddl) := do
  m.validateNames
  let capture := m.capture eventType
  let name := triggerName m.watchedTable eventType
  let trigger := Ddl.createTrigger ⟨name, m.watchedTable, capture⟩
  return match d with
    | .sqlite | .mySql => [trigger]
    | .postgres =>
      [.replaceFunction (functionName m.watchedTable eventType) capture,
        .dropTrigger name m.watchedTable, trigger]

def dropTrigger (d : Dialect) (m : LogModel) (eventType : EventType) :
    Except ModelError (List Ddl) := do
  m.validateNames
  let drop := Ddl.dropTrigger (triggerName m.watchedTable eventType) m.watchedTable
  return match d with
    | .sqlite | .mySql => [drop]
    | .postgres => [drop, .dropFunction (functionName m.watchedTable eventType)]

def createTriggers (d : Dialect) (strategy : InstallStrategy) (m : LogModel) :
    Except ModelError (List Ddl) := do
  let statements ← EventType.all.mapM fun eventType => do
    let dropped ← if strategy = .dropCreate then dropTrigger d m eventType else .ok []
    return dropped ++ (← createTrigger d m eventType)
  return statements.flatten

def install (d : Dialect) (models : List LogModel) (strategy : InstallStrategy) :
    Except ModelError (List Ddl) := do
  if strategy = .dontCreate then return []
  let statements ← models.mapM fun m =>
    return (← createLogTable m) ++ (← createTriggers d strategy m)
  return setup d ++ statements.flatten

/-- All triggers, then the counter. Log tables are not looked at, so they outlive capture, unless one
has the name of the counter. -/
def uninstall (d : Dialect) (models : List LogModel) : Except ModelError (List Ddl) := do
  let statements ← models.mapM fun m => EventType.all.mapM (dropTrigger d m)
  return statements.flatten.flatten ++ teardown

end Capture

end ChangeFeed
