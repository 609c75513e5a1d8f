import ChangeFeed.ChangeEvent
import ChangeFeed.Chunks
import ChangeFeed.Containment
import ChangeFeed.Index.Engine
import ChangeFeed.Poller
import ChangeFeed.Provider

namespace ChangeFeed

structure BatchOutcome where
  updated : Nat := 0
  deleted : Nat := 0
  skipped : Nat := 0
  cascaded : Nat := 0
  deriving DecidableEq

/-- Counted without a bound. Counters of 64 bits would start again at zero after so many. -/
structure UpdaterStats where
  batches : Nat := 0
  failedBatches : Nat := 0
  updated : Nat := 0
  deleted : Nat := 0
  skipped : Nat := 0
  cascaded : Nat := 0
  deriving DecidableEq

namespace UpdaterStats

def addOutcome (s : UpdaterStats) (o : BatchOutcome) : UpdaterStats :=
  { s with
    batches := s.batches + 1
    updated := s.updated + o.updated
    deleted := s.deleted + o.deleted
    skipped := s.skipped + o.skipped
    cascaded := s.cascaded + o.cascaded }

def addFailure (s : UpdaterStats) : UpdaterStats := { s with failedBatches := s.failedBatches + 1 }

end UpdaterStats

structure Updater (π ι : Type) where
  containment : Containment
  provider : EntityProvider π
  index : IndexEngine ι
  pageSize : Nat

namespace Updater

variable {π ι σ : Type}

def make (containment : Containment) (provider : EntityProvider π) (index : IndexEngine ι)
    (pageSize : Nat) : Except Failure (Updater π ι) :=
  if pageSize = 0 then .error .pageSize else .ok ⟨containment, provider, index, pageSize⟩

/-- The ids found under a field, page by page until a page comes back short. There are no more full
pages than documents, so `fuel` pages are enough. -/
def findAll (u : Updater π ι) (root field value : String) : Nat → Nat → Act ι (List EntityId)
  | 0, _ => pure []
  | fuel + 1, first => do
    let page ← u.index.find ⟨root, field, value, first, u.pageSize⟩
    if page.length < u.pageSize then return page
    return page ++ (← u.findAll root field value fuel (first + u.pageSize))

def containing (u : Updater π ι) (lookup : RootLookup) (value : String) : Act ι (List EntityId) := do
  let fuel := u.index.bound (← get) + 1
  let pages ← lookup.idFields.mapM fun field => u.findAll lookup.rootType field value fuel 0
  return sortDistinct pages.flatten

/-- The loaded documents that were asked for, each once. -/
def wanted (root : String) (chunk : List EntityId) :
    List EntityId → List Document → List Document
  | _, [] => []
  | done, d :: rest =>
    if d.entityType ≠ root ∨ d.id ∉ chunk ∨ d.id ∈ done then wanted root chunk done rest
    else d :: wanted root chunk (d.id :: done) rest

def replaceAll (u : Updater π ι) (documents : List Document) : Act ι Unit :=
  documents.forM u.index.update

/-- Loads the root documents of the given ids, chunk by chunk, and replaces those that still exist.
-/
def refreshChunks (u : Updater σ σ) (root : String) :
    List EntityId → List (List EntityId) → Act σ Nat
  | _, [] => pure 0
  | done, chunk :: rest => do
    let loaded ← u.provider.getBatch root chunk
    let documents := wanted root chunk done loaded
    u.replaceAll documents
    let later ← u.refreshChunks root (documents.map (·.id) ++ done) rest
    return documents.length + later

def refresh (u : Updater σ σ) (lookup : RootLookup) (id : EntityId) (o : BatchOutcome) :
    Act σ BatchOutcome := do
  if lookup.idFields = [] then return o
  let ids ← u.containing lookup id.term
  let count ← u.refreshChunks lookup.rootType [] (chunks u.pageSize ids)
  return { o with updated := o.updated + count, cascaded := o.cascaded + count }

/-- Writes a root entity itself. `survivor` is the entity, if it exists. -/
def applyDirect (u : Updater σ σ) (key : EntityKey) (survivor : Option Document) (lookup : RootLookup)
    (o : BatchOutcome) : Act σ BatchOutcome :=
  if lookup.direct then
    match survivor with
    | some d => do
      u.index.update d
      return { o with updated := o.updated + 1 }
    | none => do
      u.index.delete key
      return { o with deleted := o.deleted + 1 }
  else return o

def applyLookups (u : Updater σ σ) (key : EntityKey) (survivor : Option Document) :
    List RootLookup → BatchOutcome → Act σ BatchOutcome
  | [], o => pure o
  | lookup :: rest, o => do
    let o ← u.applyDirect key survivor lookup o
    let o ← u.refresh lookup key.id o
    u.applyLookups key survivor rest o

/-- Applies one event. A type without roots is skipped, and so is an insert or update of an entity
that no longer exists: its deletion has an event of its own. A deleted root that still exists is
replaced, since a row that links two entities reports its deletion for both. -/
def applyEvent (u : Updater σ σ) (o : BatchOutcome) (e : ChangeEvent) : Act σ BatchOutcome := do
  let lookups := u.containment.rootsContaining e.entityType
  let key : EntityKey := ⟨e.entityType, e.id⟩
  if lookups = [] then return { o with skipped := o.skipped + 1 }
  match e.eventType with
  | .insert | .update =>
    match ← u.provider.get key with
    | none => return { o with skipped := o.skipped + 1 }
    | some d => u.applyLookups key (some d) lookups o
  | .delete =>
    let survivor ← if lookups.any (·.direct) then u.provider.get key else pure none
    u.applyLookups key survivor lookups o

/-- Applies events in one index transaction. If one of them fails, the transaction is undone and
the failure is that event's. -/
def transact (u : Updater σ σ) (events : List ChangeEvent) : Act σ BatchOutcome := do
  u.index.start
  match ← Act.attempt (events.foldlM u.applyEvent {}) with
  | .ok o =>
    u.index.commit
    return o
  | .error e =>
    Act.ignore u.index.rollback
    throw e

/-- Applies a batch inside a session, which is closed on every way out. A batch that is delivered again
only replaces documents. -/
def batch (u : Updater σ σ) (events : List ChangeEvent) : Act σ BatchOutcome := do
  if events = [] then return {}
  u.provider.start
  let result ← Act.attempt (u.transact events)
  Act.ignore u.provider.close
  Act.ofExcept result

/-- The updater with its provider and its index on one state. -/
def joint (u : Updater π ι) : Updater (π × ι) (π × ι) :=
  ⟨u.containment, u.provider.onFst, u.index.onSnd, u.pageSize⟩

def run (u : Updater π ι) (events : List ChangeEvent) : Act (π × ι) BatchOutcome := u.joint.batch events

structure World (π ι : Type) where
  provider : π
  index : ι
  stats : UpdaterStats := {}

def apply (u : Updater π ι) (events : List ChangeEvent) : Act (World π ι) BatchOutcome := fun w =>
  match u.run events (w.provider, w.index) with
  | .ok o (provider, index) => .ok o ⟨provider, index, w.stats.addOutcome o⟩
  | .error e (provider, index) => .error e ⟨provider, index, w.stats.addFailure⟩

def consumer (u : Updater π ι) : Consumer (World π ι) where
  name := "index_updater"
  receive events := do let _ ← u.apply events

end Updater

end ChangeFeed
