import ChangeFeed.Index.Layout
import ChangeFeed.Poller

namespace ChangeFeed

inductive TimeUnit where
  | milliseconds
  | seconds
  | minutes
  deriving DecidableEq

namespace TimeUnit

def all : List TimeUnit := [milliseconds, seconds, minutes]

def name : TimeUnit → String
  | milliseconds => "milliseconds"
  | seconds => "seconds"
  | minutes => "minutes"

end TimeUnit

structure Span where
  seconds : Nat
  nanoseconds : Nat
  deriving DecidableEq

namespace Span

def maxSeconds : Nat := UInt64.size - 1

/-- So many units of time, or the longest span of whole seconds if that is too long. -/
def ofUnits (amount : Nat) : TimeUnit → Span
  | .milliseconds => ⟨amount / 1000, amount % 1000 * 1000000⟩
  | .seconds => ⟨amount, 0⟩
  | .minutes => ⟨min (amount * 60) maxSeconds, 0⟩

end Span

structure PollingConfig where
  /-- The delay from the end of one poll to the start of the next. -/
  interval : UInt64 := 500
  unit : TimeUnit := .milliseconds
  batchSize : UInt64 := 100
  windowSize : UInt64 := 100
  policy : FailurePolicy := .abort
  deriving DecidableEq

structure IndexConfig where
  pageSize : UInt64 := 100
  textFields : List String := []
  deriving DecidableEq

structure EmbedConfig where
  entityType : String
  idFields : List String
  deriving DecidableEq

structure RootConfig where
  entityType : String
  embeds : List EmbedConfig := []
  deriving DecidableEq

structure SyncConfig where
  polling : PollingConfig := {}
  index : IndexConfig := {}
  logTables : List LogModel := []
  roots : List RootConfig := []
  deriving DecidableEq

namespace SyncConfig

def maxBatchSize : UInt64 := 100000

def maxWindowSize : UInt64 := 100000

def maxPageSize : UInt64 := 10000

def checkSize (field : String) (value limit : UInt64) : Except ConfigError Unit :=
  if 1 ≤ value ∧ value ≤ limit then .ok ()
  else
    .error (.range field (toString value) "1" (toString limit)
      s!"Use a value between 1 and {limit}.")

def checkTables : List String → List LogModel → Except ConfigError Unit
  | _, [] => .ok ()
  | tables, m :: rest =>
    match m.validate with
    | .error cause => .error (.model cause)
    | .ok () =>
      if m.logTable ∈ tables then .error (.repeatedTable m.logTable)
      else checkTables (m.logTable :: tables) rest

def embeddings (c : SyncConfig) : List Embedding :=
  c.roots.flatMap fun root =>
    root.embeds.flatMap fun embed =>
      embed.idFields.map fun field => ⟨root.entityType, embed.entityType, field⟩

def containment (c : SyncConfig) : Except ContainmentError Containment :=
  Containment.build (c.roots.map (·.entityType)) c.embeddings

def validate (c : SyncConfig) : Except ConfigError Unit := do
  if c.polling.interval = 0 then
    throw (.range "polling.interval" "0" "1" (toString (UInt64.size - 1))
      "A zero delay would spin on the log tables.")
  checkSize "polling.batch_size" c.polling.batchSize maxBatchSize
  checkSize "polling.window_size" c.polling.windowSize maxWindowSize
  checkSize "index.page_size" c.index.pageSize maxPageSize
  if c.logTables = [] then throw .noLogTables
  checkTables [] c.logTables
  match c.containment with
  | .error cause => throw (.containment cause)
  | .ok _ => return

def pollInterval (c : SyncConfig) : Span := .ofUnits c.polling.interval.toNat c.polling.unit

def models (c : SyncConfig) : Except ModelError (List LogModel) := do
  c.logTables.forM LogModel.validate
  return c.logTables

def pollerConfig (c : SyncConfig) : PollerConfig where
  batchSize := c.polling.batchSize.toNat
  windowSize := c.polling.windowSize.toNat
  policy := c.polling.policy

def layout (c : SyncConfig) : Except ContainmentError IndexLayout := do
  return .forContainment (← c.containment) [] c.index.textFields

end SyncConfig

end ChangeFeed
