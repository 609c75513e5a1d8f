import ChangeFeed.Proofs.Feed
import ChangeFeed.Proofs.Source
import Mathlib.Logic.Relation

namespace ChangeFeed

namespace MemoryLog

/-- The rows of the tables that some models describe which are in one log and not in another. -/
def lost (models : List LogModel) (before after : MemoryLog) : List Delivery :=
  (before.merged models).filter (· ∉ after.merged models)

variable {models : List LogModel} {before after : MemoryLog}

theorem lost_eq_nil_iff :
    lost models before after = [] ↔ ∀ d ∈ before.merged models, d ∈ after.merged models := by
  simp [lost]

theorem lost_self (models : List LogModel) (log : MemoryLog) : lost models log log = [] :=
  lost_eq_nil_iff.2 fun _ hd => hd

theorem lost_record (h : before.Stamped) (hmax : before.sequence ≠ Int64.maxValue)
    (hnd : (models.map (·.logTable)).Nodup) {k : Nat} {m : LogModel} (hk : models[k]? = some m)
    {t : EventType} {values : List IdValue} {n : Int64} (hr : before.record m t values = .ok (n, after)) :
    lost models before after = [] := by
  rw [lost_eq_nil_iff, merged_record h hmax hnd hk hr]
  intro d hd
  exact List.mem_append_left _ hd

end MemoryLog

theorem SourceStats.skippedWhilePaused_addResult (s : SourceStats) (r : Except Failure PollReport) :
    (s.addResult r).skippedWhilePaused = s.skippedWhilePaused := by
  cases r <;> rfl

/-- What a step of a session does to the counts of its source, and to whether a poll is on its way. -/
inductive Counted (s s' : Source) : SourceEvent → Prop
  | same {e : SourceEvent} (he : e.endsPoll = false) (hstats : s'.stats = s.stats)
    (hloop : s'.loop.isPolling = s.loop.isPolling) : Counted s s' e
  | skipped (hstate : s.state = .paused) {seen due : Nat} (hloop : s.loop = .waiting seen due)
    (hdue : due ≤ s.now) (hs : s' = { s with loop := .ready s.changes, stats := s.stats.addSkipped }) : Counted s s' .move
  | ticked (hstate : s.state = .running) (hloop : s.loop.isPolling = false)
    (hs : s' = { s with loop := .polling s.changes, stats := s.stats.addTick }) :
    Counted s s' .pollStarts
  | ended (result : Except Failure PollReport) {seen : Nat} (hloop : s.loop = .polling seen)
    (hs : s' = { s with loop := .ready seen, stats := s.stats.addResult result }) :
    Counted s s' (.pollEnds result)

theorem Session.Step.counted {s s' : Session} {e : SourceEvent} (hstep : Session.Step s e s')
    (h : s.source.Sound) : Counted s.source s'.source e := by
  cases hstep with
  | @accept s s' c hc =>
      cases c with
      | start runtime =>
          obtain ⟨-, hs, rfl⟩ := Source.start_ok hc
          have ha : s.loop = .absent := h.new hs
          refine .same rfl rfl ?_
          rw [ha]
          rfl
      | pause | resume =>
          obtain ⟨-, rfl⟩ := Source.transition_ok hc
          exact .same rfl rfl rfl
  | refuse | stop | stopReturns | pass => exact .same rfl rfl rfl
  | begin hl =>
      rw [Source.begin_eq hl]
      refine .same rfl rfl ?_
      rw [hl]
      rfl
  | notice hl hseen =>
      rw [Source.notice_eq hl hseen]
      refine .same rfl rfl ?_
      rw [hl]
      dsimp only
      split <;> rfl
  | skip hl hdue hpoll =>
      rcases h.expire_cases hl hdue with ⟨-, he⟩ | ⟨hstate, he⟩ | ⟨-, he⟩
      · rw [he] at hpoll
        exact absurd rfl (hpoll _)
      · exact .skipped hstate hl hdue he
      · -- The loop ends, as the source was stopped.
        rw [he]
        refine .same rfl rfl ?_
        rw [hl]
        rfl
  | poll hl hdue hpoll =>
      rcases h.expire_cases hl hdue with ⟨hstate, he⟩ | ⟨-, he⟩ | ⟨-, he⟩
      · refine .ticked hstate ?_ he
        rw [hl]
        rfl
      all_goals
        rw [he] at hpoll
        cases hpoll
  | finish hl result => exact .ended result hl (Source.finish_eq hl result)

theorem Counted.of_own {s s' : Source} {e : SourceEvent} (h : Counted s s' e)
    (he : e.endsPoll = false) :
    s'.stats.ticks + s.loop.isPolling.toNat = s.stats.ticks + s'.loop.isPolling.toNat ∧
      s'.stats.failedPolls = s.stats.failedPolls ∧ s'.stats.rows = s.stats.rows ∧
      s'.stats.events = s.stats.events := by
  cases h with
  | same _ hstats hloop =>
      rw [hstats, hloop]
      exact ⟨rfl, rfl, rfl, rfl⟩
  | skipped _ hloop _ hs | ticked _ hloop hs =>
      rw [hs, hloop]
      exact ⟨rfl, rfl, rfl, rfl⟩
  | ended => cases he

namespace Feed

variable {φ κ : Type} {p : Poller κ} {s : State φ κ}

def Polled.failed (q : Polled) : Bool := !q.result.isOk

theorem poll_counts (hp : p.Accepted) (hlog : s.log.Coherent)
    (ask : FaultPoint → φ → Option Failure × φ) (stats : SourceStats) :
    (s.poll p (.ofAsk ask)).log.Coherent ∧
      stats.addResult (s.polled p (.ofAsk ask)).result = { stats with
        failedPolls := stats.failedPolls + if (s.polled p (.ofAsk ask)).failed then 1 else 0
        rows := stats.rows + (MemoryLog.lost p.models s.log (s.poll p (.ofAsk ask)).log).length
        events := stats.events + (s.polled p (.ofAsk ask)).delivered.length } := by
  obtain ⟨-, ⟨b, failures, hres, hb, hlog', hseen⟩ | ⟨e, hres, hlog', -⟩⟩ :=
    poll_spec (Faults.keeps_ofAsk ask) trivial hlog (fun _ _ _ _ => trivial) hp
  · have hnd : (s.log.merged p.models).Nodup :=
      Merge.merged_nodup (MemoryLog.ascending_tables hlog p.models)
    have hlost : MemoryLog.lost p.models s.log (s.poll p (.ofAsk ask)).log = b.rows := by
      rw [MemoryLog.lost, hlog', Poller.merged_of_taken hlog hp hb, Poller.rows_of_nextBatch hb,
        Poller.nextRows, filter_not_mem_drop hnd]
    rw [hlost, Polled.delivered_of_handed hres hseen, Polled.failed, hres, hlog']
    exact ⟨hlog.without _, rfl⟩
  · rw [hlog', MemoryLog.lost_self, Polled.delivered, Polled.failed, hres]
    exact ⟨hlog, rfl⟩

end Feed

/-- A source and its caller, what its polls work on, and the rows that were lost from the tables of its
poller so far. -/
structure Service (φ κ : Type) where
  session : Session
  feed : Feed.State φ κ
  removed : List Delivery := []

namespace Service

variable {φ κ : Type}

def source (w : Service φ κ) : Source := w.session.source

def start (interval : Nat) (store : φ × MemoryLog.Tx) (consumers : κ) : Service φ κ where
  session := ⟨{ interval }, .free⟩
  feed := { store, consumers }

inductive Step (p : Poller κ) (f : Faults φ) (w : Service φ κ) : Service φ κ → Prop
  | own {e : SourceEvent} {s : Session} (h : Session.Step w.session e s) (he : e.endsPoll = false) :
    Step p f w ⟨s, w.feed, w.removed⟩
  /-- A poll ends as it must, for the log and the consumers that it finds. -/
  | poll {s : Session} (h : Session.Step w.session (.pollEnds (w.feed.polled p f).result) s) :
    Step p f w ⟨s, w.feed.poll p f,
      w.removed ++ MemoryLog.lost p.models w.feed.log (w.feed.poll p f).log⟩
  /-- Others work on the log and the consumers, and change what fails. They make no polls, keep every
  row under its sequence id, and take no row away. -/
  | others {feed : Feed.State φ κ} (hpolls : feed.polls = w.feed.polls) (hlog : feed.log.Coherent)
    (hkept : MemoryLog.lost p.models w.feed.log feed.log = []) :
    Step p f w ⟨w.session, feed, w.removed⟩

theorem Step.record {p : Poller κ} {f : Faults φ} {w : Service φ κ} (hp : p.Accepted)
    (h : w.feed.log.Stamped) (hmax : w.feed.log.sequence ≠ Int64.maxValue) (position : Nat)
    (t : EventType) (values : List IdValue) :
    Step p f w ⟨w.session, w.feed.record p position t values, w.removed⟩ := by
  rcases Feed.record_cases p w.feed position t values with hs | ⟨m, n, log, hm, hr, hs⟩
  · rw [hs]
    exact .others rfl h.coherent (MemoryLog.lost_self ..)
  · rw [hs]
    exact .others rfl (h.record hmax hr).coherent (MemoryLog.lost_record h hmax hp.nodup hm hr)

def Reaches (p : Poller κ) (f : Faults φ) : Service φ κ → Service φ κ → Prop :=
  Relation.ReflTransGen (Step p f)

def world (w : Service φ κ) : Source × (φ × MemoryLog.Tx) × κ :=
  (w.source, w.feed.store, w.feed.consumers)

variable {p : Poller κ} {f : Faults φ} {w w' : Service φ κ}
  {ask : FaultPoint → φ → Option Failure × φ}

/-- The counts of a source at any time. A poll that is on its way is counted as a tick already. -/
structure Books (w : Service φ κ) : Prop where
  sound : w.source.Sound
  coherent : w.feed.log.Coherent
  ticks : w.source.stats.ticks = w.feed.polls.length + w.source.loop.isPolling.toNat
  failedPolls : w.source.stats.failedPolls = w.feed.polls.countP (·.failed)
  rows : w.source.stats.rows = w.removed.length
  events : w.source.stats.events = w.feed.delivered.length

namespace Books

theorem start {store : φ × MemoryLog.Tx} (hlog : store.2.log.Coherent) (interval : Nat)
    (consumers : κ) : Books (start interval store consumers) where
  sound := .init interval
  coherent := hlog
  ticks := rfl
  failedPolls := rfl
  rows := rfl
  events := rfl

variable (h : w.Books)
include h

theorem own {e : SourceEvent} {s : Session} (hstep : Session.Step w.session e s)
    (he : e.endsPoll = false) : Books ⟨s, w.feed, w.removed⟩ := by
  obtain ⟨hticks, hfailed, hrows, hevents⟩ := (hstep.counted h.sound).of_own he
  refine ⟨hstep.sound h.sound, h.coherent, ?_, hfailed.trans h.failedPolls, hrows.trans h.rows,
    hevents.trans h.events⟩
  have hold : w.session.source.stats.ticks = _ + w.session.source.loop.isPolling.toNat := h.ticks
  show s.source.stats.ticks = w.feed.polls.length + s.source.loop.isPolling.toNat
  omega

theorem poll (hp : p.Accepted) {s : Session}
    (hstep : Session.Step w.session (.pollEnds (w.feed.polled p (.ofAsk ask)).result) s) :
    Books ⟨s, w.feed.poll p (.ofAsk ask),
      w.removed ++ MemoryLog.lost p.models w.feed.log (w.feed.poll p (.ofAsk ask)).log⟩ := by
  cases hstep.counted h.sound with
  | same he => cases he
  | ended _ hloop hs =>
      obtain ⟨hlog, hcounts⟩ := Feed.poll_counts hp h.coherent ask w.session.source.stats
      have hticks := h.ticks
      rw [source, hloop] at hticks
      refine ⟨hstep.sound h.sound, hlog, ?_, ?_, ?_, ?_⟩
      all_goals
        rw [source, hs, hcounts]
        dsimp only
      · rw [hticks, Feed.State.poll, List.length_append]
        rfl
      · rw [Feed.State.poll, List.countP_append, List.countP_singleton]
        exact congrArg (· + _) h.failedPolls
      · rw [List.length_append]
        exact congrArg (· + _) h.rows
      · rw [Feed.delivered_poll, List.length_append]
        exact congrArg (· + _) h.events

theorem others {feed : Feed.State φ κ} (hpolls : feed.polls = w.feed.polls)
    (hlog : feed.log.Coherent) : Books ⟨w.session, feed, w.removed⟩ := by
  have hdelivered : feed.delivered = w.feed.delivered := by
    rw [Feed.State.delivered, Feed.State.delivered, hpolls]
  exact ⟨h.sound, hlog, hpolls ▸ h.ticks, hpolls ▸ h.failedPolls, h.rows, hdelivered ▸ h.events⟩

theorem step (hp : p.Accepted) (hstep : Step p (.ofAsk ask) w w') : w'.Books := by
  cases hstep with
  | own hs he => exact h.own hs he
  | poll hs => exact h.poll hp hs
  | others hpolls hlog => exact h.others hpolls hlog

theorem reaches (hp : p.Accepted) (hreaches : Reaches p (.ofAsk ask) w w') : w'.Books := by
  induction hreaches with
  | refl => exact h
  | tail _ hstep ih => exact ih.step hp hstep

end Books

namespace Reaches

theorem step {u : Service φ κ} (h : Reaches p f w w') (hstep : Step p f w' u) : Reaches p f w u :=
  Relation.ReflTransGen.tail h hstep

theorem goes {s t : Session} {feed : Feed.State φ κ} {removed : List Delivery}
    (h : Reaches p f w ⟨s, feed, removed⟩) (hgo : Session.Goes s t) :
    Reaches p f w ⟨t, feed, removed⟩ := by
  rcases hgo with rfl | ⟨e, he, hstep⟩
  · exact h
  · exact h.step (.own hstep he)

theorem tick (h : Reaches p f w w') : ∃ u, Reaches p f w u ∧
    u.world = Source.tick (p.poll (f.store MemoryLog.store)) w'.world := by
  obtain ⟨⟨r, caller⟩, feed, removed⟩ := w'
  have hexpired := (h.goes (Session.goes_wake r caller)).goes (Session.goes_expire r.wake caller)
  rw [Source.tick]
  dsimp only [world, source]
  cases hl : r.wake.expire.loop with
  | polling seen =>
      have hpoll := hexpired.step (.poll (.finish hl _))
      refine ⟨_, hpoll.goes (Session.goes_begin _ caller), ?_⟩
      -- The feed observes its polls, which changes nothing that the source sees.
      rw [Feed.outcome_poll]
  | absent | ready | waiting | ended =>
      exact ⟨_, hexpired.goes (Session.goes_begin _ caller), rfl⟩

theorem advance (h : Reaches p f w w') (span : Nat) : ∃ u, Reaches p f w u ∧
    u.world = Source.advance (p.poll (f.store MemoryLog.store)) span w'.world := by
  have hticks (k : Nat) {w' : Service φ κ} (h : Reaches p f w w') : ∃ u, Reaches p f w u ∧
      u.world = Nat.repeat (Source.tick (p.poll (f.store MemoryLog.store))) k w'.world := by
    induction k with
    | zero => exact ⟨w', h, rfl⟩
    | succ k ih =>
        obtain ⟨u, hu, hworld⟩ := ih
        rw [Nat.repeat, ← hworld]
        exact hu.tick
  obtain ⟨⟨r, caller⟩, feed, removed⟩ := w'
  have hsettled := ((h.goes (Session.goes_begin r caller)).goes (Session.goes_notice _ caller)).goes
    (Session.goes_begin _ caller)
  let time := r.settle.now + span
  obtain ⟨⟨⟨s, caller'⟩, feed', removed'⟩, hu, hworld⟩ := hticks (r.settle.ticksUntil time) hsettled
  refine ⟨_, hu.step (.own (.pass s caller' (time - s.now)) rfl), ?_⟩
  exact congrArg (fun x : Source × (φ × MemoryLog.Tx) × κ => (x.1.pass (time - x.1.now), x.2)) hworld

end Reaches

/-- A delay ends while the source is paused: one more is counted, and nothing else happens to the counts,
to the log, to what fails or to the consumers. -/
structure Skipped (w u : Service φ κ) : Prop where
  state : w.source.state = .paused
  expired : ∃ seen due, w.source.loop = .waiting seen due ∧ due ≤ w.source.now
  stats : u.source.stats =
    { w.source.stats with skippedWhilePaused := w.source.stats.skippedWhilePaused + 1 }
  feed : u.feed = w.feed
  removed : u.removed = w.removed

/-- What holds of a service at every moment of a run. -/
structure Accounted (p : Poller κ) (f : Faults φ) (w : Service φ κ) : Prop where
  /-- While no poll is on its way, the counts are those of the polls made, of the rows that are gone
  from the log, and of the events that were handed out. -/
  counts : w.source.loop.isPolling = false →
    w.source.stats.ticks = w.feed.polls.length ∧
      w.source.stats.failedPolls = w.feed.polls.countP (·.failed) ∧
      w.source.stats.rows = w.removed.length ∧ w.source.stats.events = w.feed.delivered.length
  /-- A delay that ends while the source is paused is a step that counts it. -/
  paused : w.source.state = .paused → ∀ seen due, w.source.loop = .waiting seen due →
    due ≤ w.source.now →
    Step p f w ⟨⟨w.source.expire, w.session.caller⟩, w.feed, w.removed⟩ ∧
      Skipped w ⟨⟨w.source.expire, w.session.caller⟩, w.feed, w.removed⟩
  /-- No other step counts a delay as skipped. -/
  skipped : ∀ u, Step p f w u →
    u.source.stats.skippedWhilePaused = w.source.stats.skippedWhilePaused ∨ Skipped w u
  /-- While the source is paused and no poll is on its way, nothing else is counted. -/
  silent : w.source.state = .paused → w.source.loop.isPolling = false → ∀ u, Step p f w u →
    u.source.stats = w.source.stats ∨ Skipped w u
  /-- Letting time pass leads to a moment of the run. -/
  advances : ∀ span, ∃ u, Reaches p f w u ∧
    u.world = Source.advance (p.poll (f.store MemoryLog.store)) span w.world

namespace Books

variable (h : w.Books)
include h

theorem counts (hidle : w.source.loop.isPolling = false) :
    w.source.stats.ticks = w.feed.polls.length ∧
      w.source.stats.failedPolls = w.feed.polls.countP (·.failed) ∧
      w.source.stats.rows = w.removed.length ∧ w.source.stats.events = w.feed.delivered.length := by
  refine ⟨?_, h.failedPolls, h.rows, h.events⟩
  rw [h.ticks, hidle]
  rfl

theorem paused (hstate : w.source.state = .paused) {seen due : Nat}
    (hloop : w.source.loop = .waiting seen due) (hdue : due ≤ w.source.now) :
    Step p f w ⟨⟨w.source.expire, w.session.caller⟩, w.feed, w.removed⟩ ∧
      Skipped w ⟨⟨w.source.expire, w.session.caller⟩, w.feed, w.removed⟩ := by
  rcases h.sound.expire_cases hloop hdue with ⟨hs, -⟩ | ⟨-, he⟩ | ⟨hs, -⟩
  · cases hs.symm.trans hstate
  · refine ⟨.own (.skip hloop hdue ?_) rfl, hstate, ⟨seen, due, hloop, hdue⟩,
      congrArg Source.stats he, rfl, rfl⟩
    rw [source] at he
    rw [he]
    exact nofun
  · cases hs.symm.trans hstate

theorem skipped {u : Service φ κ} (hstep : Step p f w u) :
    u.source.stats.skippedWhilePaused = w.source.stats.skippedWhilePaused ∨ Skipped w u := by
  cases hstep with
  | own hown he =>
      cases hown.counted h.sound with
      | same _ hstats => exact .inl (congrArg _ hstats)
      | skipped hstate hloop hdue hs =>
          exact .inr ⟨hstate, ⟨_, _, hloop, hdue⟩, congrArg Source.stats hs, rfl, rfl⟩
      | ticked _ _ hs => exact .inl (congrArg (·.stats.skippedWhilePaused) hs)
      | ended => cases he
  | poll hpoll =>
      cases hpoll.counted h.sound with
      | same he => cases he
      | ended result _ hs =>
          exact .inl ((congrArg (·.stats.skippedWhilePaused) hs).trans
            (SourceStats.skippedWhilePaused_addResult ..))
  | others => exact .inl rfl

theorem silent (hstate : w.source.state = .paused) (hidle : w.source.loop.isPolling = false)
    {u : Service φ κ} (hstep : Step p f w u) : u.source.stats = w.source.stats ∨ Skipped w u := by
  cases hstep with
  | own hown he =>
      cases hown.counted h.sound with
      | same _ hstats => exact .inl hstats
      | skipped _ hloop hdue hs =>
          exact .inr ⟨hstate, ⟨_, _, hloop, hdue⟩, congrArg Source.stats hs, rfl, rfl⟩
      | ticked hrunning => cases hrunning.symm.trans hstate
      | ended => cases he
  | poll hpoll =>
      cases hpoll.counted h.sound with
      | same he => cases he
      | ended _ hloop =>
          rw [source, hloop] at hidle
          cases hidle
  | others => exact .inl rfl

end Books

/-- The counts of a source over a log in memory, for any run from which nobody but its polls takes rows
away, whatever fails. -/
theorem statistics {models : List LogModel} {consumers : List (Consumer κ)} {config : PollerConfig}
    (hp : Poller.make models consumers config = .ok p)
    (ask : FaultPoint → φ → Option Failure × φ) (interval : Nat) {store : φ × MemoryLog.Tx}
    (hlog : store.2.log.Coherent) (k : κ) (h : Reaches p (.ofAsk ask) (start interval store k) w) :
    Accounted p (.ofAsk ask) w := by
  obtain ⟨-, hp⟩ := Poller.make_ok hp
  have hbooks := (Books.start hlog interval k).reaches hp h
  exact ⟨hbooks.counts, fun hstate _ _ => hbooks.paused hstate, fun _ => hbooks.skipped,
    fun hstate hidle _ => hbooks.silent hstate hidle, Reaches.advance .refl⟩

end Service

end ChangeFeed

namespace ChangeFeed.Sample

open Feed

def placeFeed : Feed.State FaultPlan Nat :=
  (Feed.start secondCommitFails 1).record placePoller 0 .insert [.integer 7, .integer 42]

def polledService : Service FaultPlan Nat where
  session :=
    ⟨dueSource.expire.finish (placeFeed.polled placePoller (.ofAsk FaultPlan.ask)).result, .free⟩
  feed := placeFeed.poll placePoller (.ofAsk FaultPlan.ask)
  removed := MemoryLog.lost [placeLog] placeFeed.log
    (placeFeed.poll placePoller (.ofAsk FaultPlan.ask)).log

example : polledService.source.stats = { ticks := 1, rows := 1, events := 2 } := by decide +kernel

theorem statistics_polledService :
    Poller.make [placeLog] [reluctant] { batchSize := 2 } = .ok placePoller ∧
      Service.Reaches placePoller (.ofAsk FaultPlan.ask)
        (.start 10 (secondCommitFails, ⟨{}, []⟩) 1) polledService ∧
      Service.Accounted placePoller (.ofAsk FaultPlan.ask) polledService := by
  have hmake : Poller.make [placeLog] [reluctant] { batchSize := 2 } = .ok placePoller := rfl
  obtain ⟨-, hp⟩ := Poller.make_ok hmake
  have hreaches : Service.Reaches placePoller (.ofAsk FaultPlan.ask)
      (.start 10 (secondCommitFails, ⟨{}, []⟩) 1) polledService := by
    have hstarted : Service.Reaches placePoller (.ofAsk FaultPlan.ask)
        (.start 10 (secondCommitFails, ⟨{}, []⟩) 1) _ :=
      .single (.own (.accept (c := .start true) rfl) rfl)
    have hwaiting := hstarted.step (.own (.begin rfl) rfl)
    have hrecorded := hwaiting.step (Service.Step.record (w := ⟨_, Feed.start secondCommitFails 1, []⟩)
      hp MemoryLog.stamped_empty (by decide) 0 .insert [.integer 7, .integer 42])
    have hdue := hrecorded.step (.own (.pass _ _ 10) rfl)
    have hpolling := hdue.step (.own (.poll rfl (Nat.le_refl 10) rfl) rfl)
    exact hpolling.step (.poll (.finish rfl _))
  exact ⟨hmake, hreaches, Service.statistics hmake FaultPlan.ask 10 MemoryLog.coherent_empty 1 hreaches⟩

end ChangeFeed.Sample
