import ChangeFeed.Proofs.Decoding
import ChangeFeed.Proofs.Dispatch
import ChangeFeed.Proofs.Fault
import ChangeFeed.Proofs.MemoryWorld

namespace ChangeFeed

open Act Reindex Updater

abbrev GuardedWorld (ψ χ : Type) := World (ψ × MemoryProvider) (χ × MemoryIndex)

/-- A consumer of a poller, on a guarded world and a state `κ`. -/
inductive Subscriber (κ : Type) where
  /-- The updater. The check may fail the call before the updater sees it. -/
  | updater (check : Act κ Unit)
  | other (c : Consumer κ)

namespace Subscriber

variable {ψ χ κ : Type}

def IsUpdater : Subscriber κ → Prop
  | updater _ => True
  | other _ => False

/-- The subscriber lets every batch pass, as far as it depends on itself. -/
def Healthy : Subscriber κ → Prop
  | updater check => ∀ k, ∃ k', check k = .ok () k'
  | other c => c.Healthy

def consumer (u : Updater (ψ × MemoryProvider) (χ × MemoryIndex)) :
    Subscriber κ → Consumer (GuardedWorld ψ χ × κ)
  | updater check =>
    { name := u.consumer.name
      receive := fun events => do
        Act.onSnd check
        Act.onFst (u.consumer.receive events) }
  | other c => { name := c.name, receive := fun events => Act.onSnd (c.receive events) }

end Subscriber

def Updater.Applied {ψ χ : Type} (c : Containment) (pageSize : Nat) (w : GuardedWorld ψ χ)
    (events : List ChangeEvent) (D : Documents) : Prop :=
  ∃ o t, (inMemory c pageSize).apply events ⟨{ w.provider.2 with failing := [] }, w.index.2, {}⟩ =
    .ok o t ∧ t.index.documents = D

section

variable {ψ χ κ : Type} {c : Containment} {n : Nat} {E I : Documents} {F : List EntityKey}
  {u : Updater (ψ × MemoryProvider) (χ × MemoryIndex)}

structure Updater.World.Holds (w : GuardedWorld ψ χ) (E : Documents) (F : List EntityKey)
    (I : Documents) : Prop where
  entities : w.provider.2.documents = E
  failing : w.provider.2.failing = F
  indexed : w.index.2.documents = I

theorem applied_reindex (hn : 0 < n) {w : GuardedWorld ψ χ} (hw : w.Holds E F I) (hE : E.Keyed)
    (events : List ChangeEvent) : Applied c n w events (reindex c E I events) := by
  have hP := MemoryProvider.serves E [] fun h : [] ≠ [] => (h rfl : False)
  have hX := MemoryIndex.stages I False
  have h := apply_ends (u := inMemory c n) hP hX hE hn events
    (w := ⟨{ w.provider.2 with failing := [] }, w.index.2, {}⟩) ⟨⟨hw.entities, rfl⟩, hw.indexed⟩
  obtain ⟨o, t, ht, -, -, hi, -⟩ := (h.mono (fun _ _ h => h) fun _ _ h => h.1).exists_ok
  exact ⟨o, t, ht, hi⟩

theorem receive_ends {f : Faults ψ} {g : Faults χ} {Q : ψ → Prop} {R : χ → Prop} {faulty : Prop}
    (hf : f.Keeps Q faulty) (hg : g.Keeps R faulty) (hF : F ≠ [] → faulty)
    (hu : Updater.make c (f.provider MemoryProvider.provider) (g.index MemoryIndex.engine) n = .ok u)
    (hE : E.Keyed) (events : List ChangeEvent) {w : GuardedWorld ψ χ} (hw : w.Holds E F I)
    (hQ : Q w.provider.1) (hR : R w.index.1) :
    Ends (u.consumer.receive events) w
      (fun _ t => t.Holds E F (reindex c E I events) ∧ Q t.provider.1 ∧ R t.index.1)
      fun _ t => faulty ∧ t.Holds E F I ∧ Q t.provider.1 ∧ R t.index.1 := by
  obtain ⟨hn, rfl⟩ := make_ok hu
  have hP := Faults.provider_serves hf (MemoryProvider.serves E F hF)
  have hX := Faults.index_stages hg (MemoryIndex.stages I faulty)
  refine (apply_ends hP hX hE hn events ⟨⟨hQ, hw.entities, hw.failing⟩, hR, hw.indexed⟩).seq ?_ ?_
  · intro e t h
    obtain ⟨hfail, ⟨hq, he, hF'⟩, ⟨hr, hi⟩, -⟩ := h
    exact ⟨hfail, ⟨he, hF', hi⟩, hq, hr⟩
  · intro o t h
    obtain ⟨-, ⟨hq, he, hF'⟩, ⟨hr, hi⟩, -⟩ := h
    exact ends_pure ⟨⟨he, hF', hi⟩, hq, hr⟩

/-- The index holds `I`, or what a batch makes of it, and nothing else of the world has changed. -/
def Whole (E : Documents) (F : List EntityKey) (I J : Documents) (Q : ψ → Prop) (R : χ → Prop)
    (t : GuardedWorld ψ χ × κ) : Prop :=
  (t.1.Holds E F I ∨ t.1.Holds E F J) ∧ Q t.1.provider.1 ∧ R t.1.index.1

theorem subscriber_ends {f : Faults ψ} {g : Faults χ} {Q : ψ → Prop} {R : χ → Prop} {faulty : Prop}
    (hf : f.Keeps Q faulty) (hg : g.Keeps R faulty) (hF : F ≠ [] → faulty)
    (hu : Updater.make c (f.provider MemoryProvider.provider) (g.index MemoryIndex.engine) n = .ok u)
    (hE : E.Keyed) (hI : I.Keyed) (events : List ChangeEvent) (x : Subscriber κ)
    (t : GuardedWorld ψ χ × κ) (ht : Whole E F I (reindex c E I events) Q R t) :
    Ends ((x.consumer u).receive events) t
      (fun _ t' => Whole E F I (reindex c E I events) Q R t' ∧
        (t.1.Holds E F (reindex c E I events) → t'.1.Holds E F (reindex c E I events)) ∧
        (x.IsUpdater → t'.1.Holds E F (reindex c E I events)))
      fun _ t' => Whole E F I (reindex c E I events) Q R t' := by
  obtain ⟨hw, hq, hr⟩ := ht
  cases x with
  | other d =>
      refine ((ends_self (d.receive events) t.2).onSnd).mono ?_ ?_
      · intro _ t' h
        obtain ⟨-, ht'⟩ := h
        rw [Whole, ht']
        exact ⟨⟨hw, hq, hr⟩, id, False.elim⟩
      · intro _ t' h
        obtain ⟨-, ht'⟩ := h
        rw [Whole, ht']
        exact ⟨hw, hq, hr⟩
  | updater check =>
      refine ((ends_self check t.2).onSnd).seq ?_ ?_
      · intro _ t' h
        obtain ⟨-, ht'⟩ := h
        rw [Whole, ht']
        exact ⟨hw, hq, hr⟩
      intro _ t' h
      obtain ⟨-, ht'⟩ := h
      rw [← ht'] at hw hq hr
      rcases hw with hw | hw
      · refine ((receive_ends hf hg hF hu hE events hw hq hr).onFst).mono ?_ ?_
        · intro _ t'' h
          obtain ⟨⟨hw', hq', hr'⟩, -⟩ := h
          exact ⟨⟨.inr hw', hq', hr'⟩, fun _ => hw', fun _ => hw'⟩
        · intro _ t'' h
          obtain ⟨⟨-, hw', hq', hr'⟩, -⟩ := h
          exact ⟨.inl hw', hq', hr'⟩
      · -- The batch is applied again, to no effect.
        refine ((receive_ends hf hg hF hu hE events hw hq hr).onFst).mono ?_ ?_
        · intro _ t'' h
          obtain ⟨⟨hw', hq', hr'⟩, -⟩ := h
          rw [reindex_idem hE hI] at hw'
          exact ⟨⟨.inr hw', hq', hr'⟩, fun _ => hw', fun _ => hw'⟩
        · intro _ t'' h
          obtain ⟨⟨-, hw', hq', hr'⟩, -⟩ := h
          exact ⟨.inr hw', hq', hr'⟩

variable {φ : Type} {e : Faults φ} {f : Faults ψ} {g : Faults χ} {P : φ → Prop} {Q : ψ → Prop}
  {R : χ → Prop} {faulty : Prop} {models : List LogModel} {subscribers : List (Subscriber κ)}
  {config : PollerConfig} {p : Poller (GuardedWorld ψ χ × κ)}

theorem hand_ends (hf : f.Keeps Q faulty) (hg : g.Keeps R faulty) (hF : F ≠ [] → faulty)
    (hu : Updater.make c (f.provider MemoryProvider.provider) (g.index MemoryIndex.engine) n = .ok u)
    (hE : E.Keyed) (hI : I.Keyed) (models : List LogModel) (subscribers : List (Subscriber κ))
    (config : PollerConfig) (b : Batch) {t : GuardedWorld ψ χ × κ}
    (ht : Whole E F I (reindex c E I b.events) Q R t) :
    Ends (Poller.hand ⟨models, subscribers.map (·.consumer u), config⟩ b) t
      (fun _ t' => Whole E F I (reindex c E I b.events) Q R t' ∧
        (config.policy = .abort → (∃ x ∈ subscribers, x.IsUpdater) →
          t'.1.Holds E F (reindex c E I b.events)))
      fun _ t' => Whole E F I (reindex c E I b.events) Q R t' := by
  have hone := subscriber_ends hf hg hF hu hE hI b.events (κ := κ)
  rw [Poller.hand]
  by_cases he : b.events = []
  · rw [if_pos he]
    refine ends_pure ⟨ht, fun _ _ => ?_⟩
    rw [he]
    rw [he] at ht
    exact ht.1.elim id id
  rw [if_neg he]
  cases hpolicy : config.policy with
  | abort =>
      have habort := Poller.dispatch_abort (g := fun x => x.consumer u) hone subscribers ht
      refine habort.mono ?_ fun _ _ h => h
      intro _ t' hend
      obtain ⟨ht', -, hspecial⟩ := hend
      exact ⟨ht', fun _ => hspecial⟩
  | logAndContinue =>
      have hkeeps : Ends (Poller.dispatch .logAndContinue b.events (subscribers.map (·.consumer u))) t
          (fun _ t' => Whole E F I (reindex c E I b.events) Q R t')
          fun _ t' => True ∧ Whole E F I (reindex c E I b.events) Q R t' := by
        refine Poller.dispatch_keeps ?_ ht
        intro d hd t ht
        obtain ⟨x, -, rfl⟩ := List.mem_map.1 hd
        exact (hone x t ht).mono (fun _ _ h => h.1) fun _ _ h => ⟨trivial, h⟩
      exact hkeeps.mono (fun _ _ h => ⟨h, fun h => by cases h⟩) fun _ _ h => h.2

theorem poll_whole_ends (he : e.Keeps P faulty) (hf : f.Keeps Q faulty) (hg : g.Keeps R faulty)
    (hu : Updater.make c (f.provider MemoryProvider.provider) (g.index MemoryIndex.engine) n = .ok u)
    (hp : Poller.make models (subscribers.map (·.consumer u)) config = .ok p)
    {s : (φ × MemoryLog.Tx) × GuardedWorld ψ χ × κ} (hP : P s.1.1) (hlog : s.1.2.log.Coherent)
    (hmax : ∀ name, ∀ r ∈ s.1.2.log.pending name, r.sequence = Int64.maxValue → faulty)
    (hF : F ≠ [] → faulty) (hE : E.Keyed) (hI : I.Keyed) (hw : s.2.1.Holds E F I)
    (hQ : Q s.2.1.provider.1) (hR : R s.2.1.index.1) :
    Ends (p.poll (e.store MemoryLog.store)) s
      (fun report t => P t.1.1 ∧ ∃ b, p.nextBatch s.1.2.log = .ok b ∧ report.rows = b.rows.length ∧
        t.1.2.log = s.1.2.log.without (MemoryLog.keysOf p.models b.rows) ∧
        Whole E F I (reindex c E I b.events) Q R t.2 ∧
        (config.policy = .abort → (∃ x ∈ subscribers, x.IsUpdater) →
          t.2.1.Holds E F (reindex c E I b.events)))
      fun x t => P t.1.1 ∧ t.1.2.log = s.1.2.log ∧ p.Failed s.1.2.log faulty x s.2 t.2 ∧
        Q t.2.1.provider.1 ∧ R t.2.1.index.1 ∧ (t.2.1.Holds E F I ∨
          ∃ b, p.nextBatch s.1.2.log = .ok b ∧ t.2.1.Holds E F (reindex c E I b.events)) := by
  obtain ⟨rfl, ha⟩ := Poller.make_ok hp
  have hS := Faults.store_holds he (MemoryLog.store_holds s.1.2.log faulty)
  have hhand (b : Batch) := hand_ends hf hg hF hu hE hI models subscribers config b
    ⟨.inl hw, hQ, hR⟩
  refine (Poller.poll_ends hS hlog hmax ha ⟨hP, rfl⟩).mono ?_ ?_
  · intro report t hend
    obtain ⟨b, failures, hb, hh, rfl, hP', hlog'⟩ := hend
    exact ⟨hP', b, hb, rfl, hlog', (hhand b).of_ok hh⟩
  · intro x t hend
    obtain ⟨⟨hP', hlog'⟩, hfail⟩ := hend
    refine ⟨hP', hlog', hfail, ?_⟩
    rcases hfail with ⟨-, ht⟩ | ⟨b, hb, hh⟩
    · rw [ht]
      exact ⟨hQ, hR, .inl hw⟩
    · have hwhole : Whole E F I (reindex c E I b.events) Q R t.2 := by
        rcases hh with hh | ⟨-, failures, hh⟩
        · exact (hhand b).of_error hh
        · exact ((hhand b).of_ok hh).1
      obtain ⟨hw', hq, hr⟩ := hwhole
      exact ⟨hq, hr, hw'.imp id fun h => ⟨b, hb, h⟩⟩

end

/-- A poll takes away all rows of its batch or none, and the index takes in all of it or nothing. If
failures of consumers abort polls, one that succeeds has brought its batch to the index. -/
structure AllOrNothing {φ ψ χ κ : Type} (c : Containment) (pageSize : Nat)
    (subscribers : List (Subscriber κ)) (p : Poller (GuardedWorld ψ χ × κ))
    (S : LogStore (φ × MemoryLog.Tx)) (s : (φ × MemoryLog.Tx) × GuardedWorld ψ χ × κ) : Prop where
  failed : ∀ e t, p.poll S s = .error e t → t.1.2.log = s.1.2.log ∧
    (t.2.1.index.2.documents = s.2.1.index.2.documents ∨
      ∃ b, p.nextBatch s.1.2.log = .ok b ∧
        Applied c pageSize s.2.1 b.events t.2.1.index.2.documents)
  succeeded : ∀ report t, p.poll S s = .ok report t → ∃ b, p.nextBatch s.1.2.log = .ok b ∧
    report.rows = b.rows.length ∧
    (∀ name, t.1.2.log.pending name = (s.1.2.log.pending name).filter fun r =>
      (name, r.sequence) ∉ MemoryLog.keysOf p.models b.rows) ∧
    (t.2.1.index.2.documents = s.2.1.index.2.documents ∨
      Applied c pageSize s.2.1 b.events t.2.1.index.2.documents) ∧
    (p.config.policy = .abort → (∃ x ∈ subscribers, x.IsUpdater) →
      Applied c pageSize s.2.1 b.events t.2.1.index.2.documents)

theorem poll_all_or_nothing {φ ψ χ κ : Type} (askStore : FaultPoint → φ → Option Failure × φ)
    (askProvider : FaultPoint → ψ → Option Failure × ψ)
    (askIndex : FaultPoint → χ → Option Failure × χ) {c : Containment} {pageSize : Nat}
    {u : Updater (ψ × MemoryProvider) (χ × MemoryIndex)}
    (hu : Updater.make c ((Faults.ofAsk askProvider).provider MemoryProvider.provider)
      ((Faults.ofAsk askIndex).index MemoryIndex.engine) pageSize = .ok u)
    {models : List LogModel} {subscribers : List (Subscriber κ)} {config : PollerConfig}
    {p : Poller (GuardedWorld ψ χ × κ)}
    (hp : Poller.make models (subscribers.map (·.consumer u)) config = .ok p)
    (s : (φ × MemoryLog.Tx) × GuardedWorld ψ χ × κ) (hlog : s.1.2.log.Coherent)
    (hE : Documents.Keyed s.2.1.provider.2.documents)
    (hI : Documents.Keyed s.2.1.index.2.documents) :
    AllOrNothing c pageSize subscribers p ((Faults.ofAsk askStore).store MemoryLog.store) s := by
  have hw : s.2.1.Holds s.2.1.provider.2.documents s.2.1.provider.2.failing
      s.2.1.index.2.documents := ⟨rfl, rfl, rfl⟩
  have hn := (Updater.make_ok hu).1
  have happlied (es : List ChangeEvent) (t : GuardedWorld ψ χ)
      (ht : t.Holds s.2.1.provider.2.documents s.2.1.provider.2.failing
        (reindex c s.2.1.provider.2.documents s.2.1.index.2.documents es)) :
      Applied c pageSize s.2.1 es t.index.2.documents := by
    rw [ht.indexed]
    exact applied_reindex hn hw hE es
  have hconfig : p.config = config := by rw [(Poller.make_ok hp).1]
  have hends := poll_whole_ends (Faults.keeps_ofAsk askStore) (Faults.keeps_ofAsk askProvider)
    (Faults.keeps_ofAsk askIndex) hu hp trivial hlog (fun _ _ _ _ => trivial) (fun _ => trivial)
    hE hI hw trivial trivial
  constructor
  · intro x t hx
    obtain ⟨-, hkept, -, -, -, hwhole⟩ := hends.of_error hx
    refine ⟨hkept, hwhole.imp (fun h => h.indexed) ?_⟩
    intro hend
    obtain ⟨b, hb, h⟩ := hend
    exact ⟨b, hb, happlied _ _ h⟩
  · intro report t hx
    obtain ⟨-, b, hb, hrows, hgone, ⟨hwhole, -⟩, habort⟩ := hends.of_ok hx
    refine ⟨b, hb, hrows, ?_, ?_, ?_⟩
    · intro name
      rw [hgone]
      exact MemoryLog.pending_without hlog _ name
    · exact hwhole.imp (fun h => h.indexed) fun h => happlied _ _ h
    · intro hpolicy hupdater
      exact happlied _ _ (habort (hconfig ▸ hpolicy) hupdater)

end ChangeFeed

namespace ChangeFeed.Sample

def commitFails : FaultPlan :=
  { faults := [(.storeCommit, { failure := .alreadyOpen }),
      (.storeRollback, { failure := .alreadyOpen })] }

def placeUpdater : Updater (FaultPlan × MemoryProvider) (FaultPlan × MemoryIndex) :=
  ⟨containment, (Faults.ofAsk FaultPlan.ask).provider MemoryProvider.provider,
    (Faults.ofAsk FaultPlan.ask).index MemoryIndex.engine, 100⟩

def updated : Poller (GuardedWorld FaultPlan FaultPlan × Unit) :=
  ⟨[placeLog], [.updater (pure ())].map (Subscriber.consumer placeUpdater), {}⟩

def placeRow : LogRow := placeLog.row 1 .delete [.integer 8, .integer 42]

def placeState : (FaultPlan × MemoryLog.Tx) × GuardedWorld FaultPlan FaultPlan × Unit :=
  ((commitFails, ⟨MemoryLog.insertRow {} "place_log" placeRow, []⟩),
    ⟨({}, { documents := entities }), ({}, ⟨indexed, []⟩), {}⟩, ())

theorem poll_placeState :
    Updater.make containment ((Faults.ofAsk FaultPlan.ask).provider MemoryProvider.provider)
        ((Faults.ofAsk FaultPlan.ask).index MemoryIndex.engine) 100 = .ok placeUpdater ∧
      Poller.make [placeLog] ([.updater (pure ())].map (Subscriber.consumer placeUpdater)) {} =
        .ok updated ∧
      placeState.1.2.log.Coherent ∧ Documents.Keyed placeState.2.1.provider.2.documents ∧
      Documents.Keyed placeState.2.1.index.2.documents ∧
      AllOrNothing containment 100 [.updater (pure ())] updated
        ((Faults.ofAsk FaultPlan.ask).store MemoryLog.store) placeState := by
  have hu : Updater.make containment ((Faults.ofAsk FaultPlan.ask).provider MemoryProvider.provider)
      ((Faults.ofAsk FaultPlan.ask).index MemoryIndex.engine) 100 = .ok placeUpdater := rfl
  have hp : Poller.make [placeLog] ([.updater (pure ())].map (Subscriber.consumer placeUpdater)) {} =
      .ok updated := rfl
  have hlog : placeState.1.2.log.Coherent :=
    MemoryLog.stamped_empty.coherent.insertRow "place_log" placeRow
  exact ⟨hu, hp, hlog, keyed_entities, keyed_indexed,
    poll_all_or_nothing FaultPlan.ask FaultPlan.ask FaultPlan.ask hu hp placeState hlog
      keyed_entities keyed_indexed⟩

end ChangeFeed.Sample
