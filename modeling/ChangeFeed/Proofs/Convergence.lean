import ChangeFeed.Proofs.Atomicity
import ChangeFeed.Proofs.Coverage
import ChangeFeed.Proofs.Recording

namespace ChangeFeed.Convergence

open Act Reindex Coverage

inductive Edit where
  | put (d : Document)
  | remove (k : EntityKey)
  | failOn (k : EntityKey)

def Edit.apply (p : MemoryProvider) : Edit → MemoryProvider
  | put d => p.put d
  | remove k => p.remove k
  | failOn k => p.failOn k

/-- The log, the entities and the index, each with what decides about its faults, and the state of
the other consumers. -/
structure State (φ ψ χ κ : Type) where
  store : φ × MemoryLog.Tx
  world : GuardedWorld ψ χ
  consumers : κ

namespace State

variable {φ ψ χ κ : Type}

def log (s : State φ ψ χ κ) : MemoryLog := s.store.2.log

def entities (s : State φ ψ χ κ) : Documents := s.world.provider.2.documents

def indexed (s : State φ ψ χ κ) : Documents := s.world.index.2.documents

def change (models : List LogModel) (s : State φ ψ χ κ) (edits : List Edit) (changes : List RowChange) :
    State φ ψ χ κ :=
  { s with
    store := (s.store.1, { s.store.2 with log := (s.log.recordAll models changes).1 })
    world := { s.world with
      provider := (s.world.provider.1, edits.foldl Edit.apply s.world.provider.2) } }

def attempt (p : Poller (GuardedWorld ψ χ × κ)) (f : Faults φ) (s : State φ ψ χ κ) :
    Except Failure PollReport × (φ × MemoryLog.Tx) × GuardedWorld ψ χ × κ :=
  (p.poll (f.store MemoryLog.store)).outcome (s.store, s.world, s.consumers)

def poll (p : Poller (GuardedWorld ψ χ × κ)) (f : Faults φ) (s : State φ ψ χ κ) : State φ ψ χ κ where
  store := (s.attempt p f).2.1
  world := (s.attempt p f).2.2.1
  consumers := (s.attempt p f).2.2.2

def polls (p : Poller (GuardedWorld ψ χ × κ)) (f : Faults φ) : Nat → State φ ψ χ κ → State φ ψ χ κ
  | 0, s => s
  | n + 1, s => polls p f n (s.poll p f)

end State

variable {φ ψ χ κ : Type}

/-- The states of all runs: an empty log and an index that is up to date, then changes that are
announced by the rows they record, and polls. -/
inductive Reachable (c : Containment) (p : Poller (GuardedWorld ψ χ × κ)) (f : Faults φ) :
    State φ ψ χ κ → Prop where
  | start {s : State φ ψ χ κ} (hlog : s.log = {}) (hkeyed : s.entities.Keyed)
      (hindexed : s.indexed = s.entities.ofRoots c) : Reachable c p f s
  | change {s : State φ ψ χ κ} {edits : List Edit} {changes : List RowChange} {es : List ChangeEvent}
      (hs : Reachable c p f s)
      (hseq : s.log.sequence.toInt + changes.length < Int64.maxValue.toInt)
      (hes : decode p.models (s.log.recordAll p.models changes).2 = .ok es)
      (ha : Announced c s.entities (s.change p.models edits changes).entities es) :
      Reachable c p f (s.change p.models edits changes)
  | poll {s : State φ ψ χ κ} (hs : Reachable c p f s) : Reachable c p f (s.poll p f)

/-- The poller hands its batches to the updater, and a failure of a consumer ends a poll. -/
structure Wired (c : Containment) (pageSize : Nat) (g : Faults ψ) (h : Faults χ)
    (u : Updater (ψ × MemoryProvider) (χ × MemoryIndex)) (subscribers : List (Subscriber κ))
    (p : Poller (GuardedWorld ψ χ × κ)) : Prop where
  updater : Updater.make c (g.provider MemoryProvider.provider) (h.index MemoryIndex.engine) pageSize =
    .ok u
  poller : Poller.make p.models (subscribers.map (·.consumer u)) p.config = .ok p
  policy : p.config.policy = .abort
  subscribed : ∃ x ∈ subscribers, x.IsUpdater

structure Inv (c : Containment) (p : Poller (GuardedWorld ψ χ × κ)) (s : State φ ψ χ κ) : Prop where
  stamped : s.log.Stamped
  sequence : s.log.sequence ≠ Int64.maxValue
  tracks : ∃ es, decode p.models (s.log.merged p.models) = .ok es ∧ Tracks c s.entities s.indexed es

variable {c : Containment} {n : Nat} {f : Faults φ} {g : Faults ψ} {h : Faults χ}
  {u : Updater (ψ × MemoryProvider) (χ × MemoryIndex)} {subscribers : List (Subscriber κ)}
  {p : Poller (GuardedWorld ψ χ × κ)} {s : State φ ψ χ κ} {P : φ → Prop} {Q : ψ → Prop}
  {R : χ → Prop} {faulty : Prop}

theorem inv_start (hlog : s.log = {}) (hkeyed : s.entities.Keyed)
    (hindexed : s.indexed = s.entities.ofRoots c) : Inv c p s where
  stamped := by
    rw [hlog]
    exact MemoryLog.stamped_empty
  sequence := by
    rw [hlog]
    decide
  tracks := by
    refine ⟨[], ?_, ?_⟩
    · rw [hlog, MemoryLog.merged_empty]
      rfl
    · rw [hindexed]
      exact tracks_ofRoots hkeyed

theorem keyed_edits (edits : List Edit) {m : MemoryProvider} (hm : Documents.Keyed m.documents) :
    Documents.Keyed (edits.foldl Edit.apply m).documents := by
  induction edits generalizing m with
  | nil => exact hm
  | cons e edits ih =>
      refine ih ?_
      cases e with
      | put d => exact MemoryProvider.keyed_put hm d
      | remove k => exact MemoryProvider.keyed_remove hm k
      | failOn k => exact hm

theorem Inv.change (hi : Inv c p s) (hp : p.Accepted)
    (hc : ∀ t, t ∈ c.rootTypes ↔ Containment.Rooted c.entries t) {edits : List Edit}
    {changes : List RowChange} {es : List ChangeEvent}
    (hseq : s.log.sequence.toInt + changes.length < Int64.maxValue.toInt)
    (hes : decode p.models (s.log.recordAll p.models changes).2 = .ok es)
    (ha : Announced c s.entities (s.change p.models edits changes).entities es) :
    Inv c p (s.change p.models edits changes) := by
  obtain ⟨hstamped, hne, hmerged, -⟩ :=
    MemoryLog.recordAll_spec hi.stamped hp.valid hp.nodup changes hseq
  obtain ⟨old, hold, htracks⟩ := hi.tracks
  refine ⟨hstamped, hne, old ++ es, ?_, ?_⟩
  · show decode p.models ((s.log.recordAll p.models changes).1.merged p.models) = _
    rw [hmerged, decode_append_ok]
    exact ⟨_, _, hold, hes, rfl⟩
  · exact htracks.change (keyed_edits edits htracks.entities) hc ha

theorem Wired.accepted (hw : Wired c n g h u subscribers p) : p.Accepted := (Poller.make_ok hw.poller).2

theorem poll_spec (hw : Wired c n g h u subscribers p) (hf : f.Keeps P faulty) (hg : g.Keeps Q faulty)
    (hh : h.Keeps R faulty) (hi : Inv c p s) (hP : P s.store.1) (hQ : Q s.world.provider.1)
    (hR : R s.world.index.1) (hF : s.world.provider.2.failing ≠ [] → faulty) :
    P (s.poll p f).store.1 ∧ Q (s.poll p f).world.provider.1 ∧ R (s.poll p f).world.index.1 ∧
      (s.poll p f).entities = s.entities ∧
      (s.poll p f).world.provider.2.failing = s.world.provider.2.failing ∧
      ((∃ report b, (s.attempt p f).1 = .ok report ∧ p.nextBatch s.log = .ok b ∧
          (s.poll p f).log = s.log.without (MemoryLog.keysOf p.models b.rows) ∧
          (s.poll p f).indexed = reindex c s.entities s.indexed b.events) ∨
        ∃ e, (s.attempt p f).1 = .error e ∧ (s.poll p f).log = s.log ∧
          p.Failed s.log faulty e (s.world, s.consumers) (s.attempt p f).2.2 ∧
          ((s.poll p f).indexed = s.indexed ∨ ∃ b, p.nextBatch s.log = .ok b ∧
            (s.poll p f).indexed = reindex c s.entities s.indexed b.events)) := by
  obtain ⟨es, -, htracks⟩ := hi.tracks
  have hmax : ∀ name, ∀ r ∈ s.log.pending name, r.sequence = Int64.maxValue → faulty :=
    fun name r hr he => (hi.stamped.no_maxValue hi.sequence name r hr he).elim
  have hends := poll_whole_ends hf hg hh hw.updater hw.poller
    (s := (s.store, s.world, s.consumers)) hP hi.stamped.coherent hmax hF htracks.entities
    htracks.indexed ⟨rfl, rfl, rfl⟩ hQ hR
  rw [State.poll]
  cases hr : p.poll (f.store MemoryLog.store) (s.store, s.world, s.consumers) with
  | ok report t =>
      have ha : s.attempt p f = (.ok report, t) := by rw [State.attempt, Act.outcome, hr]
      obtain ⟨hP', b, hb, -, hlog, ⟨-, hQ', hR'⟩, habort⟩ := hends.of_ok hr
      have hholds := habort hw.policy hw.subscribed
      rw [ha]
      exact ⟨hP', hQ', hR', hholds.entities, hholds.failing,
        .inl ⟨report, b, rfl, hb, hlog, hholds.indexed⟩⟩
  | error e t =>
      have ha : s.attempt p f = (.error e, t) := by rw [State.attempt, Act.outcome, hr]
      obtain ⟨hP', hlog, hfail, hQ', hR', hholds⟩ := hends.of_error hr
      rw [ha]
      have hkept : t.2.1.provider.2.documents = s.entities ∧
          t.2.1.provider.2.failing = s.world.provider.2.failing := by
        rcases hholds with hholds | ⟨b, -, hholds⟩
        · exact ⟨hholds.entities, hholds.failing⟩
        · exact ⟨hholds.entities, hholds.failing⟩
      refine ⟨hP', hQ', hR', hkept.1, hkept.2, .inr ⟨e, rfl, hlog, hfail, ?_⟩⟩
      rcases hholds with hholds | ⟨b, hb, hholds⟩
      · exact .inl hholds.indexed
      · exact .inr ⟨b, hb, hholds.indexed⟩

theorem events_of_pending (hp : p.Accepted) {log : MemoryLog} (hlog : log.Coherent) {b : Batch}
    (hb : p.nextBatch log = .ok b) {es : List ChangeEvent}
    (hes : decode p.models (log.merged p.models) = .ok es) : ∃ later, es = b.events ++ later ∧
      decode p.models ((log.without (MemoryLog.keysOf p.models b.rows)).merged p.models) =
        .ok later := by
  rw [← List.take_append_drop p.config.batchSize (log.merged p.models), decode_append_ok] at hes
  obtain ⟨first, later, hfirst, hlater, rfl⟩ := hes
  cases hfirst.symm.trans (Poller.decode_nextRows hb)
  refine ⟨later, rfl, ?_⟩
  rw [Poller.merged_of_taken hlog hp hb]
  exact hlater

theorem Inv.poll (hi : Inv c p s) (hw : Wired c n g h u subscribers p)
    (hc : Containment.Lawful c.rootTypes c.entries) (hf : f.Keeps P faulty) (hg : g.Keeps Q faulty)
    (hh : h.Keeps R faulty) (hP : P s.store.1) (hQ : Q s.world.provider.1) (hR : R s.world.index.1)
    (hF : s.world.provider.2.failing ≠ [] → faulty) : Inv c p (s.poll p f) := by
  obtain ⟨es, hes, htracks⟩ := hi.tracks
  have hmem {b : Batch} (hb : p.nextBatch s.log = .ok b) {later : List ChangeEvent}
      (he : es = b.events ++ later) : ∀ e ∈ es, e ∈ b.events ∨ e ∈ later := by
    intro e h
    rw [he] at h
    exact List.mem_append.1 h
  obtain ⟨-, -, -, hE, -, ⟨_, b, -, hb, hlog, hI⟩ | ⟨_, -, hlog, -, hI⟩⟩ :=
    poll_spec hw hf hg hh hi hP hQ hR hF
  · obtain ⟨later, he, hlater⟩ := events_of_pending hw.accepted hi.stamped.coherent hb hes
    refine ⟨?_, ?_, later, ?_, ?_⟩
    · rw [hlog]
      exact hi.stamped.without _
    · rw [hlog]
      exact hi.sequence
    · rw [hlog]
      exact hlater
    · rw [hE, hI]
      exact htracks.reindex hc (hmem hb he)
  · refine ⟨hlog ▸ hi.stamped, hlog ▸ hi.sequence, es, ?_, ?_⟩
    · rw [hlog]
      exact hes
    · rw [hE]
      rcases hI with hI | ⟨b, hb, hI⟩
      · rw [hI]
        exact htracks
      · -- The batch has reached the index, and its rows are still pending.
        rw [hI]
        exact htracks.reindex hc fun e he => .inr he

theorem Reachable.inv (hs : Reachable c p f s) (hw : Wired c n g h u subscribers p)
    (hlawful : Containment.Lawful c.rootTypes c.entries)
    (hrooted : ∀ t, t ∈ c.rootTypes ↔ Containment.Rooted c.entries t)
    (hf : f.Keeps (fun _ => True) True) (hg : g.Keeps (fun _ => True) True)
    (hh : h.Keeps (fun _ => True) True) : Inv c p s := by
  induction hs with
  | start hlog hkeyed hindexed => exact inv_start hlog hkeyed hindexed
  | change hs hseq hes ha ih => exact ih.change hw.accepted hrooted hseq hes ha
  | poll hs ih => exact ih.poll hw hlawful hf hg hh trivial trivial trivial fun _ => trivial

theorem Inv.settled (hi : Inv c p s) (hempty : s.log.merged p.models = []) :
    s.indexed = s.entities.ofRoots c := by
  obtain ⟨es, hes, htracks⟩ := hi.tracks
  rw [hempty] at hes
  cases hes
  exact htracks.eq_ofRoots

/-- Nothing fails any more: no call of the log store, of the provider or of the index, and no
consumer. -/
structure Calm (f : Faults φ) (g : Faults ψ) (h : Faults χ) (subscribers : List (Subscriber κ))
    (s : State φ ψ χ κ) : Prop where
  store : f.Quiet s.store.1
  provider : g.Quiet s.world.provider.1
  index : h.Quiet s.world.index.1
  failing : s.world.provider.2.failing = []
  healthy : ∀ x ∈ subscribers, x.Healthy

def Sound (E : Documents) (Q : ψ → Prop) (R : χ → Prop) (t : GuardedWorld ψ χ × κ) : Prop :=
  (∃ I, t.1.Holds E [] I) ∧ Q t.1.provider.1 ∧ R t.1.index.1

theorem subscriber_succeeds {E : Documents} (hg : g.Keeps Q False) (hh : h.Keeps R False)
    (hu : Updater.make c (g.provider MemoryProvider.provider) (h.index MemoryIndex.engine) n = .ok u)
    (hE : E.Keyed) (events : List ChangeEvent) {x : Subscriber κ} (hx : x.Healthy)
    {t : GuardedWorld ψ χ × κ} (ht : Sound E Q R t) :
    Ends ((x.consumer u).receive events) t (fun _ t => Sound E Q R t)
      fun _ t => False ∧ Sound E Q R t := by
  cases x with
  | other d =>
      refine ((Consumer.Healthy.ends hx events t.2).onSnd).mono ?_ fun _ _ h => h.1.elim
      intro _ t' hend
      obtain ⟨-, ht'⟩ := hend
      rw [Sound, ht']
      exact ht
  | updater check =>
      have hcheck : Ends check t.2 (fun _ _ => True) fun _ _ => False := by
        obtain ⟨k', hk⟩ := hx t.2
        rw [Ends, hk]
        trivial
      refine hcheck.onSnd.seq (fun _ _ h => h.1.elim) ?_
      intro _ t' hend
      obtain ⟨-, ht'⟩ := hend
      rw [Sound, ← ht'] at ht
      obtain ⟨⟨I, hI⟩, hQ, hR⟩ := ht
      have hreceive := receive_ends hg hh (fun h => (h rfl : False)) hu hE events hI hQ hR
      refine hreceive.onFst.mono ?_ fun _ _ h => h.1.1.elim
      intro _ t'' hend
      obtain ⟨⟨hI', hQ', hR'⟩, -⟩ := hend
      exact ⟨⟨_, hI'⟩, hQ', hR'⟩

theorem hand_succeeds {E : Documents} (hw : Wired c n g h u subscribers p) (hg : g.Keeps Q False)
    (hh : h.Keeps R False) (hE : E.Keyed) (hx : ∀ x ∈ subscribers, x.Healthy) (b : Batch)
    {t : GuardedWorld ψ χ × κ} (ht : Sound E Q R t) :
    Ends (p.hand b) t (fun _ _ => True) fun _ _ => False := by
  rw [Poller.hand]
  by_cases he : b.events = []
  · rw [if_pos he]
    exact ends_pure trivial
  rw [if_neg he, (Poller.make_ok hw.poller).1]
  have hkeeps : Ends (Poller.dispatch p.config.policy b.events (subscribers.map (·.consumer u))) t
      (fun _ t => Sound E Q R t) fun _ t => False ∧ Sound E Q R t := by
    refine Poller.dispatch_keeps ?_ ht
    intro d hd t ht
    obtain ⟨x, hmem, rfl⟩ := List.mem_map.1 hd
    exact subscriber_succeeds hg hh hw.updater hE b.events (hx x hmem) ht
  exact hkeeps.mono (fun _ _ _ => trivial) fun _ _ h => h.1

section

variable {askStore : FaultPoint → φ → Option Failure × φ}
  {askProvider : FaultPoint → ψ → Option Failure × ψ}
  {askIndex : FaultPoint → χ → Option Failure × χ}

theorem Inv.poll_calm (hi : Inv c p s)
    (hw : Wired c n (.ofAsk askProvider) (.ofAsk askIndex) u subscribers p)
    (hlawful : Containment.Lawful c.rootTypes c.entries)
    (hcalm : Calm (.ofAsk askStore) (.ofAsk askProvider) (.ofAsk askIndex) subscribers s) :
    Inv c p (s.poll p (.ofAsk askStore)) ∧
      Calm (.ofAsk askStore) (.ofAsk askProvider) (.ofAsk askIndex) subscribers
        (s.poll p (.ofAsk askStore)) ∧
      (s.poll p (.ofAsk askStore)).entities = s.entities ∧
      (s.poll p (.ofAsk askStore)).log.merged p.models =
        (s.log.merged p.models).drop p.config.batchSize ∧
      ∃ report, (s.attempt p (.ofAsk askStore)).1 = .ok report := by
  have hf := Faults.keeps_quiet askStore
  have hg := Faults.keeps_quiet askProvider
  have hh := Faults.keeps_quiet askIndex
  have hF : s.world.provider.2.failing ≠ [] → False := fun h => h hcalm.failing
  obtain ⟨es, hes, htracks⟩ := hi.tracks
  obtain ⟨hP, hQ, hR, hE, hfailing, hend⟩ :=
    poll_spec hw hf hg hh hi hcalm.store hcalm.provider hcalm.index hF
  refine ⟨hi.poll hw hlawful hf hg hh hcalm.store hcalm.provider hcalm.index hF,
    ⟨hP, hQ, hR, hfailing.trans hcalm.failing, hcalm.healthy⟩, hE, ?_⟩
  rcases hend with ⟨report, b, hres, hb, hlog, -⟩ | ⟨e, -, -, hfail, -⟩
  · rw [hlog]
    exact ⟨Poller.merged_of_taken hi.stamped.coherent hw.accepted hb, report, hres⟩
  · exfalso
    have hsound : Sound s.entities (Faults.ofAsk askProvider).Quiet (Faults.ofAsk askIndex).Quiet
        (s.world, s.consumers) :=
      ⟨⟨s.indexed, rfl, hcalm.failing, rfl⟩, hcalm.provider, hcalm.index⟩
    rcases hfail with ⟨hno | he, -⟩ | ⟨b, -, he | ⟨hno, -⟩⟩
    · exact hno
    · rw [← List.take_append_drop p.config.batchSize (s.log.merged p.models),
        decode_append_ok] at hes
      obtain ⟨first, -, hfirst, -⟩ := hes
      obtain ⟨b, hb⟩ := Batch.foldlM_of_decode hfirst {}
      cases hb.symm.trans he
    · exact (hand_succeeds hw hg hh htracks.entities hcalm.healthy b hsound).of_error he
    · exact hno

theorem Inv.polls_calm (hi : Inv c p s)
    (hw : Wired c n (.ofAsk askProvider) (.ofAsk askIndex) u subscribers p)
    (hlawful : Containment.Lawful c.rootTypes c.entries)
    (hcalm : Calm (.ofAsk askStore) (.ofAsk askProvider) (.ofAsk askIndex) subscribers s) (j : Nat) :
    Inv c p (s.polls p (.ofAsk askStore) j) ∧
      (s.polls p (.ofAsk askStore) j).entities = s.entities ∧
      (s.polls p (.ofAsk askStore) j).log.merged p.models =
        (s.log.merged p.models).drop (j * p.config.batchSize) := by
  induction j generalizing s with
  | zero =>
      refine ⟨hi, rfl, ?_⟩
      rw [Nat.zero_mul]
      rfl
  | succ j ih =>
      obtain ⟨hi', hcalm', hE, hmerged, -⟩ := hi.poll_calm hw hlawful hcalm
      obtain ⟨hi'', hE', hmerged'⟩ := ih hi' hcalm'
      refine ⟨hi'', hE'.trans hE, hmerged'.trans ?_⟩
      rw [hmerged, List.drop_drop, Nat.succ_mul, Nat.add_comm]

end

structure Converges (c : Containment) (f : Faults φ) (g : Faults ψ) (h : Faults χ)
    (subscribers : List (Subscriber κ)) (p : Poller (GuardedWorld ψ χ × κ)) (s : State φ ψ χ κ) :
    Prop where
  /-- With no rows pending the index holds the root documents as they are, and nothing else. -/
  settled : (∀ m ∈ p.models, s.log.pending m.logTable = []) → s.indexed = s.entities.ofRoots c
  /-- When nothing fails any more, the next `n / b` polls, rounded up, get there. -/
  drained : Calm f g h subscribers s → ∀ j,
    (s.log.merged p.models).length ≤ j * p.config.batchSize →
      (∀ m ∈ p.models, (s.polls p f j).log.pending m.logTable = []) ∧
        (s.polls p f j).indexed = s.entities.ofRoots c

theorem Reachable.converges (askStore : FaultPoint → φ → Option Failure × φ)
    (askProvider : FaultPoint → ψ → Option Failure × ψ)
    (askIndex : FaultPoint → χ → Option Failure × χ) {roots : List String}
    {embeddings : List Embedding} (hc : Containment.build roots embeddings = .ok c)
    (hu : Updater.make c ((Faults.ofAsk askProvider).provider MemoryProvider.provider)
      ((Faults.ofAsk askIndex).index MemoryIndex.engine) n = .ok u)
    {models : List LogModel} {config : PollerConfig} (hpolicy : config.policy = .abort)
    (hsubscribed : ∃ x ∈ subscribers, x.IsUpdater)
    (hp : Poller.make models (subscribers.map (·.consumer u)) config = .ok p)
    (hs : Reachable c p (.ofAsk askStore) s) :
    Converges c (.ofAsk askStore) (.ofAsk askProvider) (.ofAsk askIndex) subscribers p s := by
  obtain ⟨hlawful, hrooted⟩ := Containment.build_ok hc
  have hw : Wired c n (.ofAsk askProvider) (.ofAsk askIndex) u subscribers p := by
    obtain ⟨rfl, -⟩ := Poller.make_ok hp
    exact ⟨hu, hp, hpolicy, hsubscribed⟩
  have hi := hs.inv hw hlawful hrooted (Faults.keeps_ofAsk askStore) (Faults.keeps_ofAsk askProvider)
    (Faults.keeps_ofAsk askIndex)
  constructor
  · intro hnone
    exact hi.settled (MemoryLog.merged_eq_nil_iff.2 hnone)
  · intro hcalm j hj
    obtain ⟨hi', hE, hmerged⟩ := hi.polls_calm hw hlawful hcalm j
    have hempty : (s.polls p (.ofAsk askStore) j).log.merged p.models = [] := by
      rw [hmerged]
      exact List.drop_eq_nil_of_le hj
    refine ⟨MemoryLog.merged_eq_nil_iff.1 hempty, ?_⟩
    rw [hi'.settled hempty, hE]

end ChangeFeed.Convergence

namespace ChangeFeed.Sample

open Convergence

def nowhere : State FaultPlan FaultPlan FaultPlan Unit :=
  ⟨(commitFails, ⟨{}, []⟩), ⟨({}, {}), ({}, {}), {}⟩, ()⟩

def founded : State FaultPlan FaultPlan FaultPlan Unit :=
  nowhere.change [placeLog] [.put (place 7 "43")] [⟨0, .insert, [.integer 7, .integer 43]⟩]

theorem announced_founded : Announced containment nowhere.entities founded.entities
    [⟨"Place", ⟨[.integer 7]⟩, .insert⟩, ⟨"Sorcerer", ⟨[.integer 43]⟩, .insert⟩] where
  removed k h := by cases h
  created k _ _ h := by
    have hget : founded.entities.get? k =
        if k = (place 7 "43").key then some (place 7 "43") else none := SortedMap.get?_insert ..
    rw [hget] at h
    by_cases hk : k = (place 7 "43").key
    · exact ⟨_, List.mem_cons_self .., hk.symm⟩
    · rw [if_neg hk] at h
      cases h
  replaced k d d' _ h := by cases h

theorem converges_founded :
    Containment.build ["Place"] [⟨"Place", "Sorcerer", "sorcerers.id"⟩] = .ok containment ∧
      Reachable containment updated (.ofAsk FaultPlan.ask)
        (founded.poll updated (.ofAsk FaultPlan.ask)) ∧
      Converges containment (.ofAsk FaultPlan.ask) (.ofAsk FaultPlan.ask) (.ofAsk FaultPlan.ask)
        [.updater (pure ())] updated (founded.poll updated (.ofAsk FaultPlan.ask)) := by
  have hc : Containment.build ["Place"] [⟨"Place", "Sorcerer", "sorcerers.id"⟩] = .ok containment := rfl
  have hu : Updater.make containment ((Faults.ofAsk FaultPlan.ask).provider MemoryProvider.provider)
      ((Faults.ofAsk FaultPlan.ask).index MemoryIndex.engine) 100 = .ok placeUpdater := rfl
  have hp : Poller.make [placeLog] ([.updater (pure ())].map (Subscriber.consumer placeUpdater)) {} =
      .ok updated := rfl
  have hstart : Reachable containment updated (.ofAsk FaultPlan.ask) nowhere :=
    .start rfl Documents.keyed_empty rfl
  have hfounded : Reachable containment updated (.ofAsk FaultPlan.ask) founded :=
    hstart.change (by decide) rfl announced_founded
  exact ⟨hc, hfounded.poll, Reachable.converges FaultPlan.ask FaultPlan.ask FaultPlan.ask hc hu rfl
    ⟨_, List.mem_singleton_self _, trivial⟩ hp hfounded.poll⟩

end ChangeFeed.Sample
