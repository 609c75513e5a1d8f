import ChangeFeed.Act
import ChangeFeed.LogModel

namespace ChangeFeed

/-- The first rows of a log table after a sequence id, at most so many of them. -/
abbrev FetchWindow (σ : Type) := LogModel → Option Int64 → Nat → Act σ (List LogRow)

structure LogStore (σ : Type) where
  start : Act σ Unit
  fetch : FetchWindow σ
  delete : LogModel → List Int64 → Act σ Nat
  commit : Act σ Unit
  rollback : Act σ Unit
  /-- Leaves an unfinished transaction, undoing it. -/
  abandon : σ → σ

end ChangeFeed
