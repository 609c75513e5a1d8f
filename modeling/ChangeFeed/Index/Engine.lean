import ChangeFeed.Act
import ChangeFeed.Document

namespace ChangeFeed

structure IndexQuery where
  root : String
  field : String
  value : String
  first : Nat
  limit : Nat

structure IndexEngine (ι : Type) where
  start : Act ι Unit
  find : IndexQuery → Act ι (List EntityId)
  add : Document → Act ι Unit
  update : Document → Act ι Unit
  delete : EntityKey → Act ι Unit
  commit : Act ι Unit
  rollback : Act ι Unit
  abandon : ι → ι
  /-- A bound on the number of documents that a query can find. -/
  bound : ι → Nat

def IndexEngine.onSnd {π ι : Type} (e : IndexEngine ι) : IndexEngine (π × ι) where
  start := Act.onSnd e.start
  find q := Act.onSnd (e.find q)
  add d := Act.onSnd (e.add d)
  update d := Act.onSnd (e.update d)
  delete key := Act.onSnd (e.delete key)
  commit := Act.onSnd e.commit
  rollback := Act.onSnd e.rollback
  abandon s := (s.1, e.abandon s.2)
  bound s := e.bound s.2

end ChangeFeed
