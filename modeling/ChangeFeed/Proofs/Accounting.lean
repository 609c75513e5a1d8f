import ChangeFeed.Proofs.Atomicity
import ChangeFeed.Proofs.Log.Kept
import ChangeFeed.Proofs.Trace

namespace ChangeFeed

open Act

namespace MemoryProvider

theorem serves_counted (E : Documents) (F : List EntityKey) (n : Nat) {faulty : Prop}
    (hF : F ≠ [] → faulty) :
    provider.Serves E (fun p => (p.documents = E ∧ p.failing = F) ∧ p.openSessions = n)
      (fun p => (p.documents = E ∧ p.failing = F ∧ p.sessionOpen = true) ∧ p.openSessions = n + 1)
      faulty where
  start p hp := ends_modify ⟨⟨hp.1.1, hp.1.2, rfl⟩, congrArg (· + 1) hp.2⟩
  get k p hp := by
    have hcount : Keeps (fun p : MemoryProvider => p.openSessions = n + 1) (provider.get k) :=
      keeps_get.bind fun _ => keeps_ofExcept _
    refine (((serves E F hF).get k p hp.1).and (hcount p hp.2)).mono ?_ ?_
    · exact fun _ _ ⟨⟨hd, ho⟩, hn⟩ => ⟨hd, ho, hn⟩
    · exact fun _ _ ⟨⟨hf, ho⟩, hn⟩ => ⟨hf, ho, hn⟩
  getBatch root ids p hp := by
    have hcount : Keeps (fun p : MemoryProvider => p.openSessions = n + 1) (provider.getBatch root ids) :=
      keeps_get.bind fun _ => keeps_ofExcept _
    refine (((serves E F hF).getBatch root ids p hp.1).and (hcount p hp.2)).mono ?_ ?_
    · exact fun _ _ ⟨⟨hd, ho⟩, hn⟩ => ⟨hd, ho, hn⟩
    · exact fun _ _ ⟨⟨hf, ho⟩, hn⟩ => ⟨hf, ho, hn⟩
  close p hp := by
    obtain ⟨⟨hd, hf, ho⟩, hn⟩ := hp
    refine ends_modify ?_
    simp [closeSession, ho, hd, hf, hn]

end MemoryProvider

namespace Updater

open AdapterCall

section

variable {π ι : Type}

/-- Batches one after the other. Before each of them others may change the entities and the index. -/
def applyEach (u : Updater π ι) : List ((π × ι → π × ι) × List ChangeEvent) → World π ι →
    List (Except Failure BatchOutcome) × World π ι
  | [], w => ([], w)
  | (change, events) :: rest, w =>
    let s := change (w.provider, w.index)
    let ended := (u.apply events).outcome ⟨s.1, s.2, w.stats⟩
    let later := u.applyEach rest ended.2
    (ended.1 :: later.1, later.2)

def total (results : List (Except Failure BatchOutcome)) : BatchOutcome :=
  (results.filterMap Except.toOption).foldr BatchOutcome.add {}

/-- What a number of batches adds to the counters. -/
structure Adds (s : UpdaterStats) (results : List (Except Failure BatchOutcome)) (t : UpdaterStats) :
    Prop where
  calls : t.batches + t.failedBatches = s.batches + s.failedBatches + results.length
  batches : t.batches = s.batches + (results.filterMap Except.toOption).length
  updated : t.updated = s.updated + (total results).updated
  deleted : t.deleted = s.deleted + (total results).deleted
  skipped : t.skipped = s.skipped + (total results).skipped
  cascaded : t.cascaded = s.cascaded + (total results).cascaded

theorem stats_apply (u : Updater π ι) (events : List ChangeEvent) (w : World π ι) :
    Ends (u.apply events) w (fun o t => t.stats = w.stats.addOutcome o)
      fun _ t => t.stats = w.stats.addFailure := by
  rw [Ends, apply]
  cases u.run events (w.provider, w.index) <;> rfl

theorem adds_cons_ok {s t : UpdaterStats} {o : BatchOutcome} {rs : List (Except Failure BatchOutcome)}
    (h : Adds (s.addOutcome o) rs t) : Adds s (.ok o :: rs) t := by
  obtain ⟨hcalls, hbatches, hupdated, hdeleted, hskipped, hcascaded⟩ := h
  simp only [UpdaterStats.addOutcome] at hcalls hbatches hupdated hdeleted hskipped hcascaded
  have htotal : total (.ok o :: rs) = o.add (total rs) := rfl
  constructor
  case calls => rw [hcalls, List.length_cons]; omega
  case batches => rw [hbatches]; simp [Except.toOption]; omega
  case updated => rw [hupdated, htotal, BatchOutcome.add, Nat.add_assoc]
  case deleted => rw [hdeleted, htotal, BatchOutcome.add, Nat.add_assoc]
  case skipped => rw [hskipped, htotal, BatchOutcome.add, Nat.add_assoc]
  case cascaded => rw [hcascaded, htotal, BatchOutcome.add, Nat.add_assoc]

theorem adds_cons_error {s t : UpdaterStats} {e : Failure} {rs : List (Except Failure BatchOutcome)}
    (h : Adds s.addFailure rs t) : Adds s (.error e :: rs) t := by
  refine ⟨?_, h.batches, h.updated, h.deleted, h.skipped, h.cascaded⟩
  have hcalls := h.calls
  simp only [UpdaterStats.addFailure] at hcalls
  rw [hcalls, List.length_cons]
  omega

theorem adds_applyEach (u : Updater π ι) (rounds : List ((π × ι → π × ι) × List ChangeEvent))
    (w : World π ι) : (u.applyEach rounds w).1.length = rounds.length ∧
      Adds w.stats (u.applyEach rounds w).1 (u.applyEach rounds w).2.stats := by
  induction rounds generalizing w with
  | nil => exact ⟨rfl, rfl, rfl, rfl, rfl, rfl, rfl⟩
  | cons round rounds ih =>
      obtain ⟨change, events⟩ := round
      rw [applyEach]
      generalize hs : change (w.provider, w.index) = s
      have hstats := u.stats_apply events ⟨s.1, s.2, w.stats⟩
      dsimp only
      rw [outcome]
      cases hr : u.apply events ⟨s.1, s.2, w.stats⟩ with
      | ok o t =>
          obtain ⟨hlength, hadds⟩ := ih t
          rw [hstats.of_ok hr] at hadds
          exact ⟨congrArg (· + 1) hlength, adds_cons_ok hadds⟩
      | error e t =>
          obtain ⟨hlength, hadds⟩ := ih t
          rw [hstats.of_error hr] at hadds
          exact ⟨congrArg (· + 1) hlength, adds_cons_error hadds⟩

theorem error_run_iff (u : Updater π ι) (events : List ChangeEvent) (w : World π ι) (e : Failure) :
    (∃ t, u.apply events w = .error e t) ↔ ∃ t, u.run events (w.provider, w.index) = .error e t := by
  rw [apply]
  cases u.run events (w.provider, w.index) <;> simp

end

section

variable {ψ χ : Type}

/-- The calls are those of a run that ends as the batch does. The batch fails if and only if one of them
fails, and with the first failure. Then the index is as it was, and the batch counts as failed. A session
that was opened for the batch is closed once, whatever became of the batch. -/
structure Accounted (u : Updater (ψ × MemoryProvider) (χ × MemoryIndex)) (events : List ChangeEvent)
    (w : GuardedWorld ψ χ) : Prop where
  traced : (u.run events).outcome (w.provider, w.index) =
    (((u.joint.noted.batch events).outcome ((w.provider, w.index), [])).1,
      ((u.joint.noted.batch events).outcome ((w.provider, w.index), [])).2.1)
  first : ∀ e, (∃ t, u.apply events w = .error e t) ↔
    firstFailure (u.calls events (w.provider, w.index)) = some e
  failed : ∀ e t, u.apply events w = .error e t →
    t.index.2.documents = w.index.2.documents ∧
      t.stats = { w.stats with failedBatches := w.stats.failedBatches + 1 }
  session : InSession (u.calls events (w.provider, w.index))
  sessions : ((u.apply events).outcome w).2.provider.2.openSessions = w.provider.2.openSessions

variable (askProvider : FaultPoint → ψ → Option Failure × ψ)
  (askIndex : FaultPoint → χ → Option Failure × χ) {c : Containment} {pageSize : Nat}
  {u : Updater (ψ × MemoryProvider) (χ × MemoryIndex)}
  (hu : Updater.make c ((Faults.ofAsk askProvider).provider MemoryProvider.provider)
    ((Faults.ofAsk askIndex).index MemoryIndex.engine) pageSize = .ok u)
include hu

theorem apply_counted_ends (events : List ChangeEvent) (w : GuardedWorld ψ χ)
    (hE : Documents.Keyed w.provider.2.documents) :
    Ends (u.apply events) w (fun _ t => t.provider.2.openSessions = w.provider.2.openSessions)
      fun _ t => t.provider.2.openSessions = w.provider.2.openSessions ∧
        t.index.2.documents = w.index.2.documents ∧ t.stats = w.stats.addFailure := by
  obtain ⟨hn, rfl⟩ := make_ok hu
  have hP := Faults.provider_serves (Faults.keeps_ofAsk askProvider)
    (MemoryProvider.serves_counted w.provider.2.documents w.provider.2.failing
      w.provider.2.openSessions fun _ => trivial)
  have hX := Faults.index_stages (Faults.keeps_ofAsk askIndex)
    (MemoryIndex.stages w.index.2.documents True)
  refine (apply_ends hP hX hE hn events ⟨⟨trivial, ⟨rfl, rfl⟩, rfl⟩, trivial, rfl⟩).mono ?_ ?_
  · rintro o t ⟨-, ⟨-, -, hcount⟩, -⟩
    exact hcount
  · rintro e t ⟨-, ⟨-, -, hcount⟩, ⟨-, hindex⟩, hstats⟩
    exact ⟨hcount, hindex, hstats⟩

/-- Any call may fail, that of closing the session as well. Of batches one after the other each is counted
as one that succeeded or one that failed, and the outcomes of those that succeeded add up. -/
theorem apply_accounts :
    (∀ (events : List ChangeEvent) (w : GuardedWorld ψ χ),
      Documents.Keyed w.provider.2.documents → u.Accounted events w) ∧
    ∀ (rounds : List (((ψ × MemoryProvider) × χ × MemoryIndex → (ψ × MemoryProvider) × χ × MemoryIndex) ×
        List ChangeEvent)) (w : GuardedWorld ψ χ),
      (u.applyEach rounds w).1.length = rounds.length ∧
        Adds w.stats (u.applyEach rounds w).1 (u.applyEach rounds w).2.stats := by
  refine ⟨fun events w hE => ?_, u.adds_applyEach⟩
  have hends := apply_counted_ends askProvider askIndex hu events w hE
  obtain ⟨hsession, hfirst⟩ := u.calls_spec events (w.provider, w.index)
  constructor
  case traced => exact u.joint.erases_batch events ((w.provider, w.index), [])
  case first => exact fun e => (u.error_run_iff events w e).trans (hfirst e)
  case failed => exact fun e t ht => (hends.of_error ht).2
  case session => exact hsession
  case sessions =>
    rw [outcome]
    cases hr : u.apply events w with
    | ok o t => exact hends.of_ok hr
    | error e t => exact (hends.of_error hr).1

end

end Updater

end ChangeFeed

namespace ChangeFeed.Sample

open Updater

def diskFull : Failure := .reported .index "disk full"

def unwritable : FaultPlan :=
  { faults := [(.indexUpdate, { failure := diskFull }), (.indexRollback, { failure := .alreadyOpen })] }

def unwritableWorld : GuardedWorld FaultPlan FaultPlan :=
  ⟨({}, { documents := entities }), (unwritable, ⟨indexed, []⟩), {}⟩

/-- The place that contains the sorcerer cannot be replaced, and then the transaction cannot be undone. -/
theorem accounts_unwritable :
    Updater.make containment ((Faults.ofAsk FaultPlan.ask).provider MemoryProvider.provider)
        ((Faults.ofAsk FaultPlan.ask).index MemoryIndex.engine) 100 = .ok placeUpdater ∧
      Documents.Keyed unwritableWorld.provider.2.documents ∧
      placeUpdater.calls [sorcererGone] (unwritableWorld.provider, unwritableWorld.index) =
        [⟨.sessionStart, none⟩, ⟨.indexStart, none⟩, ⟨.indexFind, none⟩, ⟨.sessionGetBatch, none⟩,
          ⟨.indexUpdate, some diskFull⟩, ⟨.indexRollback, some .alreadyOpen⟩, ⟨.sessionClose, none⟩] ∧
      (∃ t, placeUpdater.apply [sorcererGone] unwritableWorld = .error diskFull t) ∧
      placeUpdater.Accounted [sorcererGone] unwritableWorld ∧
      Adds {} (placeUpdater.applyEach [(id, [sorcererGone]), (id, [sorcererGone])] unwritableWorld).1
        (placeUpdater.applyEach [(id, [sorcererGone]), (id, [sorcererGone])] unwritableWorld).2.stats := by
  have hu : Updater.make containment ((Faults.ofAsk FaultPlan.ask).provider MemoryProvider.provider)
      ((Faults.ofAsk FaultPlan.ask).index MemoryIndex.engine) 100 = .ok placeUpdater := rfl
  have haccounts := apply_accounts FaultPlan.ask FaultPlan.ask hu
  have hone := haccounts.1 [sorcererGone] unwritableWorld keyed_entities
  have hcalls : placeUpdater.calls [sorcererGone] (unwritableWorld.provider, unwritableWorld.index) =
      [⟨.sessionStart, none⟩, ⟨.indexStart, none⟩, ⟨.indexFind, none⟩, ⟨.sessionGetBatch, none⟩,
        ⟨.indexUpdate, some diskFull⟩, ⟨.indexRollback, some .alreadyOpen⟩, ⟨.sessionClose, none⟩] := by
    decide +kernel
  exact ⟨hu, keyed_entities, hcalls, (hone.first diskFull).2 (hcalls ▸ rfl), hone,
    (haccounts.2 _ unwritableWorld).2⟩

end ChangeFeed.Sample
