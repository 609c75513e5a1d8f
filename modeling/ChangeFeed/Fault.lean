import ChangeFeed.Act
import ChangeFeed.Document
import ChangeFeed.Index.Engine
import ChangeFeed.Log.Store
import ChangeFeed.Provider

namespace ChangeFeed

inductive FaultPoint where
  | storeStart
  | storeFetch
  | storeDelete
  /-- The rows are deleted, but one of them is not counted. -/
  | storeCount
  | storeCommit
  | storeRollback
  | sessionStart
  | sessionGet
  | sessionGetBatch
  | sessionClose
  | indexStart
  | indexFind
  | indexAdd
  | indexUpdate
  | indexDelete
  | indexCommit
  | indexRollback
  deriving DecidableEq

/-- What decides about faults, with a state `φ` of its own. A guarded adapter asks it before every call,
and knows nothing else of it. -/
structure Faults (φ : Type) where
  ask : FaultPoint → φ → Option Failure × φ
  /-- Documents that a provider returns beside those that were asked for. -/
  extra : φ → List Document

namespace Faults

variable {φ σ π ι α : Type}

def next (f : Faults φ) (p : FaultPoint) : Act (φ × σ) (Option Failure) :=
  Act.onFst (modifyGet (f.ask p))

def pass (f : Faults φ) (p : FaultPoint) : Act (φ × σ) Unit := do
  match ← f.next p with
  | some e => throw e
  | none => pure ()

def guard (f : Faults φ) (p : FaultPoint) (call : Act σ α) : Act (φ × σ) α := do
  f.pass p
  Act.onSnd call

def finish (f : Faults φ) (p : FaultPoint) (abandon : σ → σ) (call : Act σ Unit) :
    Act (φ × σ) Unit := do
  match ← f.next p with
  | some e => do
    modify fun s => (s.1, abandon s.2)
    throw e
  | none => Act.onSnd call

def store (f : Faults φ) (s : LogStore σ) : LogStore (φ × σ) where
  start := f.guard .storeStart s.start
  fetch m after limit := f.guard .storeFetch (s.fetch m after limit)
  delete m ids := do
    let count ← f.guard .storeDelete (s.delete m ids)
    match ← f.next .storeCount with
    | some _ => return count - 1
    | none => return count
  commit := f.finish .storeCommit s.abandon s.commit
  rollback := f.finish .storeRollback s.abandon s.rollback
  abandon w := (w.1, s.abandon w.2)

def provider (f : Faults φ) (p : EntityProvider π) : EntityProvider (φ × π) where
  start := f.guard .sessionStart p.start
  get key := f.guard .sessionGet (p.get key)
  getBatch entityType ids := do
    let found ← f.guard .sessionGetBatch (p.getBatch entityType ids)
    return found ++ f.extra (← get).1
  close := do
    let failure ← f.next .sessionClose
    Act.onSnd p.close
    match failure with
    | some e => throw e
    | none => pure ()

def index (f : Faults φ) (e : IndexEngine ι) : IndexEngine (φ × ι) where
  start := f.guard .indexStart e.start
  find q := f.guard .indexFind (e.find q)
  add d := f.guard .indexAdd (e.add d)
  update d := f.guard .indexUpdate (e.update d)
  delete key := f.guard .indexDelete (e.delete key)
  commit := f.finish .indexCommit e.abandon e.commit
  rollback := f.finish .indexRollback e.abandon e.rollback
  abandon w := (w.1, e.abandon w.2)
  bound w := e.bound w.2

end Faults

/-- A fault that is due at a call, counted from one, and at all later calls if it is lasting. -/
structure Fault where
  turn : Nat := 1
  lasting : Bool := false
  failure : Failure
  calls : Nat := 0
  deriving DecidableEq

namespace Fault

def call (x : Fault) : Option Failure × Fault :=
  let calls := x.calls + 1
  let due := calls = x.turn ∨ (x.lasting ∧ x.turn ≤ calls)
  (if due then some x.failure else none, { x with calls })

end Fault

structure FaultPlan where
  faults : List (FaultPoint × Fault) := []
  extra : List Document := []
  deriving DecidableEq

namespace FaultPlan

def add (plan : FaultPlan) (p : FaultPoint) (x : Fault) : FaultPlan :=
  { plan with faults := (p, x) :: plan.faults.filter (·.1 ≠ p) }

def ask (p : FaultPoint) (plan : FaultPlan) : Option Failure × FaultPlan :=
  match plan.faults.lookup p with
  | none => (none, plan)
  | some x => (x.call.1, plan.add p x.call.2)

def source : Faults FaultPlan := ⟨ask, extra⟩

end FaultPlan

end ChangeFeed
