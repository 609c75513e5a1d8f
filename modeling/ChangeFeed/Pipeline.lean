import ChangeFeed.Config.Basic
import ChangeFeed.Fault
import ChangeFeed.Recorder
import ChangeFeed.Updater

namespace ChangeFeed

inductive Receiver where
  | updater
  | recorder (r : Recorder)

structure PipelineSettings where
  models : List LogModel := []
  containment : Containment := {}
  pageSize : Nat := 100
  poller : PollerConfig := {}
  receivers : List Receiver := []

namespace PipelineSettings

def ofConfig (c : SyncConfig) (receivers : List Receiver) : Except Failure PipelineSettings := do
  return {
    models := ← c.models.mapError .model
    containment := ← c.containment.mapError .containment
    pageSize := c.index.pageSize.toNat
    poller := c.pollerConfig
    receivers }

end PipelineSettings

structure Reception (ι : Type) where
  world : Updater.World (FaultPlan × MemoryProvider) (FaultPlan × ι)
  recordings : Recordings := {}

namespace Reception

variable {ι : Type}

def onWorld {α : Type} (a : Act (Updater.World (FaultPlan × MemoryProvider) (FaultPlan × ι)) α) :
    Act (Reception ι) α := fun r =>
  match a r.world with
  | .ok x world => .ok x { r with world }
  | .error e world => .error e { r with world }

def onRecordings {α : Type} (a : Act Recordings α) : Act (Reception ι) α := fun r =>
  match a r.recordings with
  | .ok x recordings => .ok x { r with recordings }
  | .error e recordings => .error e { r with recordings }

end Reception

structure Pipeline (σ ι : Type) where
  store : LogStore (FaultPlan × σ)
  updater : Updater (FaultPlan × MemoryProvider) (FaultPlan × ι)
  poller : Poller (Reception ι)

namespace Pipeline

variable {σ ι : Type}

def consumer (u : Updater (FaultPlan × MemoryProvider) (FaultPlan × ι)) (position : Nat) :
    Receiver → Consumer (Reception ι)
  | .updater =>
    { name := u.consumer.name, receive := fun es => Reception.onWorld (u.consumer.receive es) }
  | .recorder r =>
    let c := r.consumer position
    { name := c.name, receive := fun es => Reception.onRecordings (c.receive es) }

def make (store : LogStore σ) (index : IndexEngine ι) (s : PipelineSettings) :
    Except Failure (Pipeline σ ι) := do
  let faults := FaultPlan.source
  let updater ← Updater.make s.containment (faults.provider MemoryProvider.provider)
    (faults.index index) s.pageSize
  let consumers := s.receivers.mapIdx (consumer updater)
  let poller ← Poller.make s.models consumers s.poller
  return ⟨faults.store store, updater, poller⟩

abbrev State (σ ι : Type) := (FaultPlan × σ) × Reception ι

namespace State

def new (log : σ) (index : ι) : State σ ι := (({}, log), { world := ⟨({}, {}), ({}, index), {}⟩ })

def log (s : State σ ι) : σ := s.1.2

def withLog (s : State σ ι) (log : σ) : State σ ι := ((s.1.1, log), s.2)

def provider (s : State σ ι) : MemoryProvider := s.2.world.provider.2

def index (s : State σ ι) : ι := s.2.world.index.2

def mapProvider (s : State σ ι) (f : MemoryProvider → MemoryProvider) : State σ ι :=
  let (plan, provider) := s.2.world.provider
  (s.1, { s.2 with world := { s.2.world with provider := (plan, f provider) } })

def mapPlans (s : State σ ι) (log provider index : FaultPlan → FaultPlan) : State σ ι :=
  let w := s.2.world
  ((log s.1.1, s.1.2), { s.2 with world := { w with
    provider := (provider w.provider.1, w.provider.2)
    index := (index w.index.1, w.index.2) } })

def addFault (s : State σ ι) (p : FaultPoint) (x : Fault) : State σ ι :=
  s.mapPlans (·.add p x) (·.add p x) (·.add p x)

def setExtra (s : State σ ι) (extra : List Document) : State σ ι :=
  s.mapPlans id ({ · with extra }) id

def heal (s : State σ ι) : State σ ι := s.mapPlans (fun _ => {}) (fun _ => {}) (fun _ => {})

def takeDelivered (s : State σ ι) : List (String × List ChangeEvent) × State σ ι :=
  let r := s.2.recordings
  (r.delivered, (s.1, { s.2 with recordings := { r with delivered := [] } }))

end State

def onLog {α : Type} (a : Act (FaultPlan × σ) α) : Act (State σ ι) α := Act.onFst a

def onProvider {α : Type} (a : Act (FaultPlan × MemoryProvider) α) : Act (State σ ι) α :=
  Act.onSnd <| Reception.onWorld fun w =>
    match a w.provider with
    | .ok x provider => .ok x { w with provider }
    | .error e provider => .error e { w with provider }

def onIndex {α : Type} (a : Act (FaultPlan × ι) α) : Act (State σ ι) α :=
  Act.onSnd <| Reception.onWorld fun w =>
    match a w.index with
    | .ok x index => .ok x { w with index }
    | .error e index => .error e { w with index }

def apply (p : Pipeline σ ι) (events : List ChangeEvent) : Act (State σ ι) BatchOutcome :=
  Act.onSnd (Reception.onWorld (p.updater.apply events))

def poll (p : Pipeline σ ι) : Act (State σ ι) PollReport := p.poller.poll p.store

end Pipeline

end ChangeFeed
