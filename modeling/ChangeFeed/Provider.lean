import ChangeFeed.Act
import ChangeFeed.Document

namespace ChangeFeed

structure EntityProvider (π : Type) where
  start : Act π Unit
  get : EntityKey → Act π (Option Document)
  getBatch : String → List EntityId → Act π (List Document)
  close : Act π Unit

def EntityProvider.onFst {π ι : Type} (p : EntityProvider π) : EntityProvider (π × ι) where
  start := Act.onFst p.start
  get key := Act.onFst (p.get key)
  getBatch entityType ids := Act.onFst (p.getBatch entityType ids)
  close := Act.onFst p.close

/-- A provider in memory. It counts the sessions that were opened and not closed, and can be told
to fail for some entities. -/
structure MemoryProvider where
  documents : SortedMap EntityKey Document := ∅
  failing : List EntityKey := []
  openSessions : Nat := 0
  sessionOpen : Bool := false
  deriving DecidableEq

namespace MemoryProvider

def put (p : MemoryProvider) (d : Document) : MemoryProvider :=
  { p with documents := p.documents.insert d.key d }

def remove (p : MemoryProvider) (key : EntityKey) : MemoryProvider :=
  { p with documents := p.documents.erase key }

def failOn (p : MemoryProvider) (key : EntityKey) : MemoryProvider :=
  { p with failing := key :: p.failing }

def startSession (p : MemoryProvider) : MemoryProvider :=
  { p with openSessions := p.openSessions + 1, sessionOpen := true }

/-- Closing a session again has no effect. -/
def closeSession (p : MemoryProvider) : MemoryProvider :=
  if p.sessionOpen then { p with openSessions := p.openSessions - 1, sessionOpen := false } else p

def load (p : MemoryProvider) (key : EntityKey) : Except Failure (Option Document) :=
  if ¬ p.sessionOpen then .error .sessionClosed
  else if key ∈ p.failing then .error (.loadFailed key.entityType key.id)
  else .ok (p.documents.get? key)

def loadBatch (p : MemoryProvider) (entityType : String) :
    List EntityId → Except Failure (List Document)
  | [] => .ok []
  | id :: rest => do
    let found ← p.load ⟨entityType, id⟩
    let later ← p.loadBatch entityType rest
    return found.toList ++ later

def provider : EntityProvider MemoryProvider where
  start := modify startSession
  get key := do Act.ofExcept ((← MonadState.get).load key)
  getBatch entityType ids := do Act.ofExcept ((← MonadState.get).loadBatch entityType ids)
  close := modify closeSession

end MemoryProvider

end ChangeFeed
