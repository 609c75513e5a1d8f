import ChangeFeed.ChangeEvent
import ChangeFeed.Log.Merge

namespace ChangeFeed

inductive FailurePolicy where
  | abort
  | logAndContinue
  deriving DecidableEq

namespace FailurePolicy

def all : List FailurePolicy := [abort, logAndContinue]

def name : FailurePolicy → String
  | abort => "abort"
  | logAndContinue => "log_and_continue"

end FailurePolicy

structure Consumer (κ : Type) where
  name : String
  receive : List ChangeEvent → Act κ Unit

structure PollerConfig where
  batchSize : Nat := 100
  windowSize : Nat := 100
  policy : FailurePolicy := .abort
  deriving DecidableEq

structure PollReport where
  rows : Nat
  events : Nat
  unknownCodes : Nat
  orphanedIds : Nat
  consumerFailures : List String
  deriving DecidableEq

namespace PollReport

def isEmpty (r : PollReport) : Bool := r.rows == 0

end PollReport

structure Batch where
  rows : List Delivery := []
  events : List ChangeEvent := []
  unknownCodes : Nat := 0
  orphanedIds : Nat := 0

namespace Batch

/-- Takes one more row. A row with an unknown event code has no events. -/
def add (models : List LogModel) (b : Batch) (d : Delivery) : Except Failure Batch :=
  match models[d.1]?, d.2.eventType? with
  | some model, some eventType => do
    let events ← model.events d.2 eventType
    return { b with
      rows := b.rows ++ [d]
      events := b.events ++ events
      orphanedIds := b.orphanedIds + (model.ids.length - events.length) }
  | _, _ => .ok { b with rows := b.rows ++ [d], unknownCodes := b.unknownCodes + 1 }

def sequencesOf (b : Batch) (position : Nat) : List Int64 :=
  (b.rows.filter (·.1 = position)).map (·.2.sequence)

def report (b : Batch) (consumerFailures : List String) : PollReport where
  rows := b.rows.length
  events := b.events.length
  unknownCodes := b.unknownCodes
  orphanedIds := b.orphanedIds
  consumerFailures

end Batch

structure Poller (κ : Type) where
  models : List LogModel
  consumers : List (Consumer κ)
  config : PollerConfig

namespace Poller

variable {σ κ : Type}

def make (models : List LogModel) (consumers : List (Consumer κ)) (config : PollerConfig) :
    Except Failure (Poller κ) :=
  if config.batchSize = 0 ∨ config.windowSize = 0 then .error .batchSizes
  else match LogModel.validateAll models with
    | .error e => .error (.model e)
    | .ok () => .ok ⟨models, consumers, config⟩

def collect (p : Poller κ) (store : LogStore σ) : Act σ Batch := fun s =>
  let merge := Merge.new p.models p.config.windowSize
  let read : Act (Merge × σ) Batch := do
    Merge.start store.fetch
    Merge.foldRows store.fetch (Batch.add p.models) p.config.batchSize {}
  match read (merge, s) with
  | .ok b (_, s) => .ok b s
  | .error e (_, s) => .error e s

def dispatch (policy : FailurePolicy) (events : List ChangeEvent) :
    List (Consumer κ) → Act κ (List String)
  | [] => pure []
  | c :: rest => do
    match ← Act.attempt (c.receive events) with
    | .ok () => dispatch policy events rest
    | .error e =>
      match policy with
      | .abort => throw (.consumer c.name e)
      | .logAndContinue => return s!"{c.name}: {e.display}" :: (← dispatch policy events rest)

/-- Deletes the rows of a batch, table by table. Every one of them must still be there. -/
def remove (store : LogStore σ) (b : Batch) : Nat → List LogModel → Act σ Unit
  | _, [] => pure ()
  | position, model :: rest => do
    let ids := b.sequencesOf position
    if ids ≠ [] then
      let deleted ← store.delete model ids
      if deleted ≠ ids.length then throw (.deletedRows model.logTable ids.length deleted)
    remove store b (position + 1) rest

def drain (p : Poller κ) (store : LogStore σ) : Act (σ × κ) PollReport := do
  let batch ← Act.onFst (p.collect store)
  let failures ←
    if batch.events = [] then pure []
    else Act.onSnd (dispatch p.config.policy batch.events p.consumers)
  Act.onFst (remove store batch 0 p.models)
  return batch.report failures

/-- Runs one poll in a transaction, which any failure undoes. A poll that found no rows ends without a
commit. -/
def poll (p : Poller κ) (store : LogStore σ) : Act (σ × κ) PollReport := do
  Act.onFst store.start
  match ← Act.attempt (p.drain store) with
  | .ok report =>
    Act.onFst (if report.isEmpty then store.rollback else store.commit)
    return report
  | .error e =>
    Act.ignore (Act.onFst store.rollback)
    throw e

end Poller

end ChangeFeed
