import ChangeFeed.Index.Engine

namespace ChangeFeed

inductive Mutation where
  | upsert (d : Document)
  | delete (key : EntityKey)
  deriving DecidableEq

structure MemoryIndex where
  documents : SortedMap EntityKey Document := ∅
  staged : List Mutation := []
  deriving DecidableEq

namespace MemoryIndex

def document? (ix : MemoryIndex) (key : EntityKey) : Option Document := ix.documents.get? key

def snapshot (ix : MemoryIndex) : List Document := ix.documents.values

def size (ix : MemoryIndex) : Nat := ix.documents.size

def hits (ix : MemoryIndex) (root field value : String) : List Document :=
  ix.snapshot.filter fun d => d.entityType = root && d.holds field value

def find (ix : MemoryIndex) (q : IndexQuery) : List EntityId :=
  (((ix.hits q.root q.field q.value).drop q.first).take q.limit).map (·.id)

def apply (documents : SortedMap EntityKey Document) : Mutation → SortedMap EntityKey Document
  | .upsert d => documents.insert d.key d
  | .delete key => documents.erase key

def stage (ix : MemoryIndex) (m : Mutation) : MemoryIndex := { ix with staged := ix.staged ++ [m] }

def commit (ix : MemoryIndex) : MemoryIndex := ⟨ix.staged.foldl apply ix.documents, []⟩

def discard (ix : MemoryIndex) : MemoryIndex := { ix with staged := [] }

def engine : IndexEngine MemoryIndex where
  start := modify discard
  find q := return (← get).find q
  add d := modify (·.stage (.upsert d))
  update d := modify (·.stage (.upsert d))
  delete key := modify (·.stage (.delete key))
  commit := modify commit
  rollback := modify discard
  abandon := discard
  bound ix := ix.size

end MemoryIndex

end ChangeFeed
