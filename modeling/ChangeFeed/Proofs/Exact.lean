import ChangeFeed.Proofs.Calls
import ChangeFeed.Proofs.Log.Calls

namespace ChangeFeed

open Act

namespace Delivery

variable (models : List LogModel) (d : Delivery)

/-- The id mappings of a row. A row with an unknown event code has none. -/
def mappings : List IdMapping :=
  match models[d.1]?, d.2.eventType? with
  | some m, some _ => m.ids
  | _, _ => []

/-- The row has a value for each log column of its first id mapping. -/
def Readable : Prop :=
  ∀ first ∈ (d.mappings models).head?, ∀ c ∈ first.logColumns, (d.2.column? c).isSome

/-- The events of a row: one for each id mapping that it holds an id for. -/
def decoded : List ChangeEvent :=
  match d.2.eventType? with
  | some t => (d.mappings models).filterMap fun k => (k.id? d.2).map (⟨k.entityType, ·, t⟩)
  | none => []

def orphans : List IdMapping := (d.mappings models).filter fun k => (k.id? d.2).isNone

variable {models d}

theorem mappings_of_unknown (h : d.2.eventType? = none) : d.mappings models = [] := by
  rw [mappings, h]
  cases models[d.1]? <;> rfl

theorem mappings_of_known {m : LogModel} {t : EventType} (hm : models[d.1]? = some m)
    (ht : d.2.eventType? = some t) : d.mappings models = m.ids := by
  rw [mappings, hm, ht]

theorem length_decoded_add_orphans (models : List LogModel) (d : Delivery) :
    (d.decoded models).length + (d.orphans models).length = (d.mappings models).length := by
  rw [decoded, orphans]
  cases ht : d.2.eventType? with
  | none =>
      rw [mappings_of_unknown ht]
      rfl
  | some t =>
      dsimp only
      induction d.mappings models with
      | nil => rfl
      | cons k ks ih => cases hk : k.id? d.2 <;> simp [hk] <;> omega

end Delivery

namespace Batch

variable {models : List LogModel} {b b' : Batch} {d : Delivery} {ds : List Delivery}

def extended (models : List LogModel) (b : Batch) (ds : List Delivery) : Batch where
  rows := b.rows ++ ds
  events := b.events ++ ds.flatMap (·.decoded models)
  unknownCodes := b.unknownCodes + ds.countP (·.2.eventType?.isNone)
  orphanedIds := b.orphanedIds + (ds.flatMap (·.orphans models)).length

theorem extended_append (b : Batch) (as bs : List Delivery) :
    (b.extended models as).extended models bs = b.extended models (as ++ bs) := by
  simp [extended, Nat.add_assoc]

theorem add_eq_ok_iff (hd : d.1 < models.length) :
    b.add models d = .ok b' ↔ d.Readable models ∧ b' = b.extended models [d] := by
  obtain ⟨m, hm⟩ : ∃ m, models[d.1]? = some m := ⟨_, List.getElem?_eq_getElem hd⟩
  cases ht : d.2.eventType? with
  | none =>
      have hmap : d.mappings models = [] := Delivery.mappings_of_unknown ht
      have hread : d.Readable models := by simp [Delivery.Readable, hmap]
      have hext : b.extended models [d] =
          { b with rows := b.rows ++ [d], unknownCodes := b.unknownCodes + 1 } := by
        simp [extended, Delivery.decoded, Delivery.orphans, hmap, ht]
      simp only [add, hm, ht, hext, hread, true_and]
      exact ⟨fun h => (Except.ok.inj h).symm, fun h => congrArg _ h.symm⟩
  | some t =>
      have hmap : d.mappings models = m.ids := Delivery.mappings_of_known hm ht
      have hread : d.Readable models ↔ ∀ first ∈ m.ids.head?, (first.id? d.2).isSome := by
        simp only [Delivery.Readable, hmap, IdMapping.isSome_id?_iff]
      have hcount := Delivery.length_decoded_add_orphans models d
      have hext : b.extended models [d] = { b with
          rows := b.rows ++ [d]
          events := b.events ++ d.decoded models
          orphanedIds := b.orphanedIds + (m.ids.length - (d.decoded models).length) } := by
        rw [← hmap, ← hcount, Nat.add_sub_cancel_left]
        simp [extended, ht]
      have hdec : d.decoded models =
          m.ids.filterMap fun k => (k.id? d.2).map (⟨k.entityType, ·, t⟩) := by
        rw [Delivery.decoded, ht, hmap]
      simp only [add, hm, ht, bind_eq_ok, LogModel.events_eq_ok_iff, ← hread, ← hdec, hext]
      constructor
      · rintro ⟨_, ⟨hr, rfl⟩, h⟩
        exact ⟨hr, (Except.ok.inj h).symm⟩
      · rintro ⟨hr, rfl⟩
        exact ⟨_, ⟨hr, rfl⟩, rfl⟩

theorem foldlM_add_eq_ok_iff (hds : ∀ d ∈ ds, d.1 < models.length) :
    ds.foldlM (add models) b = .ok b' ↔
      (∀ d ∈ ds, d.Readable models) ∧ b' = b.extended models ds := by
  induction ds generalizing b with
  | nil =>
      have hnil : b.extended models [] = b := by simp [extended]
      rw [hnil]
      exact ⟨fun h => ⟨by simp, (Except.ok.inj h).symm⟩, fun h => congrArg _ h.2.symm⟩
  | cons d ds ih =>
      obtain ⟨hd, hds⟩ := List.forall_mem_cons.1 hds
      rw [List.foldlM_cons, bind_eq_ok, List.forall_mem_cons]
      constructor
      · rintro ⟨c, hc, h⟩
        obtain ⟨hr, rfl⟩ := (add_eq_ok_iff hd).1 hc
        obtain ⟨hrs, rfl⟩ := (ih hds).1 h
        exact ⟨⟨hr, hrs⟩, extended_append b [d] ds⟩
      · rintro ⟨⟨hr, hrs⟩, rfl⟩
        exact ⟨_, (add_eq_ok_iff hd).2 ⟨hr, rfl⟩, (ih hds).2 ⟨hrs, (extended_append b [d] ds).symm⟩⟩

end Batch

namespace MemoryLog

variable {log : MemoryLog}

theorem mem_keysOf (h : log.Coherent) {models : List LogModel} {ds : List Delivery}
    (hds : ∀ d ∈ ds, d ∈ log.merged models) {name : String} {r : LogRow} (hr : r ∈ log.pending name) :
    (name, r.sequence) ∈ keysOf models ds ↔
      ∃ d ∈ ds, d.2 = r ∧ models[d.1]?.map (·.logTable) = some name := by
  rw [keysOf, List.mem_filterMap]
  constructor
  · rintro ⟨d, hd, he⟩
    obtain ⟨m, hm, he⟩ := Option.map_eq_some_iff.1 he
    obtain ⟨rfl, hs⟩ := Prod.mk.inj he
    obtain ⟨m', hm', hp⟩ := mem_merged.1 (hds d hd)
    cases hm.symm.trans hm'
    exact ⟨d, hd, (pending_ascending h _).eq_of_sequence hp hr hs, by rw [hm]; rfl⟩
  · rintro ⟨d, hd, rfl, hname⟩
    obtain ⟨m, hm, rfl⟩ := Option.map_eq_some_iff.1 hname
    exact ⟨d, hd, Option.map_eq_some_iff.2 ⟨m, hm, rfl⟩⟩

end MemoryLog

namespace Poller

variable {κ : Type}

def eventsOf (p : Poller κ) (B : List Delivery) : List ChangeEvent := B.flatMap (·.decoded p.models)

/-- What a poll of a log does that takes the rows of `B`: the store it leaves, the calls it makes, and
what it reports. -/
structure Takes (p : Poller κ) (log : MemoryLog) (B : List Delivery) (report : PollReport)
    (log' : MemoryLog) (calls : List Call) : Prop where
  calls : calls = if p.eventsOf B = [] then [] else callsFrom 0 p.consumers.length (p.eventsOf B)
  pending : ∀ name, log'.pending name = (log.pending name).filter fun r =>
    ¬ ∃ d ∈ B, d.2 = r ∧ p.models[d.1]?.map (·.logTable) = some name
  rows : report.rows = B.length
  events : report.events = (p.eventsOf B).length
  unknownCodes : report.unknownCodes = B.countP (·.2.eventType?.isNone)
  orphanedIds : report.events + report.orphanedIds = (B.flatMap (·.mappings p.models)).length
  consumerFailures : report.consumerFailures = []

variable {p : Poller κ} {log : MemoryLog}

theorem nextBatch_eq_ok_iff {b : Batch} : p.nextBatch log = .ok b ↔
    (∀ d ∈ p.nextRows log, d.Readable p.models) ∧
      b = Batch.extended p.models {} (p.nextRows log) := by
  refine Batch.foldlM_add_eq_ok_iff fun d hd => ?_
  obtain ⟨m, hm, -⟩ := MemoryLog.mem_merged.1 (List.mem_of_mem_take hd)
  exact (List.getElem?_eq_some_iff.1 hm).1

theorem takes_nextRows (hlog : log.Coherent) {b : Batch}
    (hb : b = Batch.extended p.models {} (p.nextRows log)) :
    p.Takes log (p.nextRows log) (b.report [])
      (log.without (MemoryLog.keysOf p.models b.rows))
      (if b.events = [] then [] else callsFrom 0 p.consumers.length b.events) := by
  have hrows : b.rows = p.nextRows log := hb ▸ List.nil_append _
  have hevents : b.events = p.eventsOf (p.nextRows log) := hb ▸ List.nil_append _
  have hunknown : b.unknownCodes = (p.nextRows log).countP (·.2.eventType?.isNone) :=
    hb ▸ Nat.zero_add _
  have horphans : b.orphanedIds = ((p.nextRows log).flatMap (·.orphans p.models)).length :=
    hb ▸ Nat.zero_add _
  constructor
  case calls => rw [hevents]
  case pending =>
    intro name
    rw [MemoryLog.pending_without hlog, hrows]
    refine List.filter_congr fun r hr => decide_eq_decide.2 (not_congr ?_)
    exact MemoryLog.mem_keysOf hlog (fun d hd => List.mem_of_mem_take hd) hr
  case rows => exact congrArg _ hrows
  case events => exact congrArg _ hevents
  case unknownCodes => exact hunknown
  case orphanedIds =>
    show b.events.length + b.orphanedIds = _
    rw [hevents, horphans, eventsOf]
    induction p.nextRows log with
    | nil => rfl
    | cons d ds ih =>
        have hd := Delivery.length_decoded_add_orphans p.models d
        simp only [List.flatMap_cons, List.length_append]
        omega
  case consumerFailures => rfl

/-- One poll, over healthy consumers. With notes or without, it takes the first rows of all tables, if
they are readable, and otherwise nothing. -/
theorem poll_exact {models : List LogModel} {consumers : List (Consumer κ)} {config : PollerConfig}
    (hp : make models consumers config = .ok p) (hc : ∀ c ∈ consumers, c.Healthy)
    (hlog : log.Coherent) (hmax : ∀ name, ∀ r ∈ log.pending name, r.sequence ≠ Int64.maxValue)
    (k : κ) : ∃ S : List Delivery, S.Pairwise Delivery.lt ∧
      (∀ i r, (i, r) ∈ S ↔ ∃ m, models[i]? = some m ∧ r ∈ log.pending m.logTable) ∧
      Erases (fun t => (t.1, t.2.1)) (p.noted.poll MemoryLog.store) (p.poll MemoryLog.store) ∧
      Ends (p.noted.poll MemoryLog.store) (⟨log, []⟩, k, [])
        (fun report t => (∀ d ∈ S.take config.batchSize, d.Readable models) ∧
          p.Takes log (S.take config.batchSize) report t.1.log t.2.2)
        fun _ t => (¬ ∀ d ∈ S.take config.batchSize, d.Readable models) ∧
          t.1.log = log ∧ t.2 = (k, []) := by
  obtain ⟨rfl, hacc⟩ := make_ok hp
  have haccNoted : (noted ⟨models, consumers, config⟩).Accepted :=
    ⟨hacc.batch_pos, hacc.valid, hacc.nodup⟩
  refine ⟨log.merged models, Merge.merged_lt (MemoryLog.ascending_tables hlog models),
    fun i r => MemoryLog.mem_merged, erases_poll_noted _ _, ?_⟩
  have hends := poll_ends (MemoryLog.store_holds log False) hlog (fun name r hr => hmax name r hr)
    haccNoted (s := (⟨log, []⟩, k, [])) rfl
  refine hends.mono ?_ ?_
  · rintro report ⟨tx, k', calls⟩ ⟨b, failures, hb, hhand, rfl, ht⟩
    obtain ⟨hread, hbatch⟩ := nextBatch_eq_ok_iff.1 hb
    obtain ⟨rfl, hcalls⟩ := (hand_noted hc b (k, [])).of_ok hhand
    have htakes := takes_nextRows (p := ⟨models, consumers, config⟩) hlog hbatch
    refine ⟨hread, ?_⟩
    rw [show tx.log = _ from ht, show calls = _ from hcalls]
    exact htakes
  · rintro e ⟨tx, k', calls⟩ ⟨ht, hfail⟩
    rcases hfail with ⟨hf | hb, hk⟩ | ⟨b, -, hhand | ⟨hf, -⟩⟩
    · exact hf.elim
    · refine ⟨fun hread => ?_, ht, hk⟩
      have hok := (nextBatch_eq_ok_iff (p := noted ⟨models, consumers, config⟩)).2 ⟨hread, rfl⟩
      rw [hok] at hb
      cases hb
    · exact ((hand_noted hc b (k, [])).of_error hhand).elim
    · exact hf.elim

end Poller

end ChangeFeed

namespace ChangeFeed.Sample

open Act Poller

def counter : Consumer Nat where
  name := "counter"
  receive events := modify (· + events.length)

theorem healthy_counter : counter.Healthy := fun events k => ⟨k + events.length, rfl⟩

def countingPoller : Poller Nat := ⟨[placeLog, spellLog], [counter, counter], { batchSize := 3 }⟩

def mixedRows : List (String × LogRow) :=
  [("place_log", ⟨1, 9, ∅⟩),
    ("place_log", ⟨2, EventType.delete.code,
      (∅ : SortedMap String IdValue).insert "place_id" (.integer 8)⟩),
    ("spell_log", spellLog.row 2 .insert [.integer 1]),
    ("spell_log", spellLog.row 4 .update [.integer 1]),
    ("wand_log", ⟨3, EventType.insert.code, ∅⟩)]

example : ((countingPoller.noted.poll MemoryLog.store).outcome
    (⟨MemoryLog.ofRows mixedRows, []⟩, 0, [])).1 = .ok ⟨3, 2, 1, 1, []⟩ := by decide +kernel

theorem poll_mixedRows :
    make [placeLog, spellLog] [counter, counter] { batchSize := 3 } = .ok countingPoller ∧
      (∀ c ∈ [counter, counter], c.Healthy) ∧ (MemoryLog.ofRows mixedRows).Coherent ∧
      (∀ name, ∀ r ∈ (MemoryLog.ofRows mixedRows).pending name, r.sequence ≠ Int64.maxValue) ∧
      ∃ S : List Delivery, S.Pairwise Delivery.lt ∧
        (∀ i r, (i, r) ∈ S ↔ ∃ m, [placeLog, spellLog][i]? = some m ∧
          r ∈ (MemoryLog.ofRows mixedRows).pending m.logTable) ∧
        Erases (fun t => (t.1, t.2.1)) (countingPoller.noted.poll MemoryLog.store)
          (countingPoller.poll MemoryLog.store) ∧
        Ends (countingPoller.noted.poll MemoryLog.store) (⟨MemoryLog.ofRows mixedRows, []⟩, 0, [])
          (fun report t => (∀ d ∈ S.take 3, d.Readable [placeLog, spellLog]) ∧
            countingPoller.Takes (MemoryLog.ofRows mixedRows) (S.take 3) report t.1.log t.2.2)
          fun _ t => (¬ ∀ d ∈ S.take 3, d.Readable [placeLog, spellLog]) ∧
            t.1.log = MemoryLog.ofRows mixedRows ∧ t.2 = (0, []) := by
  have hmake : make [placeLog, spellLog] [counter, counter] { batchSize := 3 } =
      .ok countingPoller := by rfl
  have hc : ∀ c ∈ [counter, counter], c.Healthy := by simp [healthy_counter]
  have hlog : (MemoryLog.ofRows mixedRows).Coherent := MemoryLog.coherent_ofRows _
  have hmax : ∀ name, ∀ r ∈ (MemoryLog.ofRows mixedRows).pending name,
      r.sequence ≠ Int64.maxValue := by
    intro name r hr
    obtain ⟨x, hx, rfl⟩ := MemoryLog.mem_pending_ofRows hr
    exact (by decide : ∀ x ∈ mixedRows, x.2.sequence ≠ Int64.maxValue) x hx
  exact ⟨hmake, hc, hlog, hmax, poll_exact hmake hc hlog hmax 0⟩

end ChangeFeed.Sample
