import ChangeFeed.Proofs.Log.Kept
import ChangeFeed.Proofs.Log.Transaction

namespace ChangeFeed

open Act

namespace Batch

variable {models : List LogModel} {b b' : Batch}

theorem rows_of_add {d : Delivery} (h : b.add models d = .ok b') : b'.rows = b.rows ++ [d] := by
  rw [add] at h
  split at h
  next =>
    obtain ⟨es, -, h⟩ := bind_eq_ok.1 h
    cases h
    rfl
  next =>
    cases h
    rfl

theorem rows_of_foldlM {ds : List Delivery} (h : ds.foldlM (add models) b = .ok b') :
    b'.rows = b.rows ++ ds := by
  induction ds generalizing b with
  | nil =>
      cases h
      rw [List.append_nil]
  | cons d ds ih =>
      rw [List.foldlM_cons] at h
      obtain ⟨c, hc, h⟩ := bind_eq_ok.1 h
      rw [ih h, rows_of_add hc, List.append_assoc, List.singleton_append]

theorem mem_sequencesOf {i : Nat} {n : Int64} :
    n ∈ b.sequencesOf i ↔ ∃ r, (i, r) ∈ b.rows ∧ r.sequence = n := by
  rw [sequencesOf, List.mem_map]
  constructor
  · intro h
    obtain ⟨⟨j, r⟩, hd, hr⟩ := h
    obtain ⟨hmem, hj⟩ := List.mem_filter.1 hd
    exact ⟨r, of_decide_eq_true hj ▸ hmem, hr⟩
  · intro h
    obtain ⟨r, hmem, hr⟩ := h
    exact ⟨(i, r), List.mem_filter.2 ⟨hmem, decide_eq_true rfl⟩, hr⟩

/-- The rows of the batch stand in the log, each of them once. -/
structure From (b : Batch) (log : MemoryLog) (models : List LogModel) : Prop where
  mem : ∀ d ∈ b.rows, d ∈ log.merged models
  nodup : b.rows.Nodup

variable {log : MemoryLog}

theorem From.sequencesOf_nodup (h : b.From log models) (hlog : log.Coherent) (i : Nat) :
    (b.sequencesOf i).Nodup := by
  refine List.pairwise_map.2 ((h.nodup.filter _).imp_of_mem ?_)
  intro d d' hd hd' hne he
  obtain ⟨j, r⟩ := d
  obtain ⟨j', r'⟩ := d'
  obtain ⟨hmem, hj⟩ := List.mem_filter.1 hd
  obtain ⟨hmem', hj'⟩ := List.mem_filter.1 hd'
  have hjj : j = j' := (of_decide_eq_true hj).trans (of_decide_eq_true hj').symm
  subst hjj
  obtain ⟨m, hm, hr⟩ := MemoryLog.mem_merged.1 (h.mem _ hmem)
  obtain ⟨m', hm', hr'⟩ := MemoryLog.mem_merged.1 (h.mem _ hmem')
  cases hm.symm.trans hm'
  exact hne (congrArg _ ((MemoryLog.pending_ascending hlog _).eq_of_sequence hr hr' he))

theorem From.contains (h : b.From log models) (hlog : log.Coherent) {i : Nat} {m : LogModel}
    (hm : models[i]? = some m) {n : Int64} (hn : n ∈ b.sequencesOf i) :
    (log.table m.logTable).contains n := by
  obtain ⟨r, hr, rfl⟩ := mem_sequencesOf.1 hn
  obtain ⟨m', hm', hp⟩ := MemoryLog.mem_merged.1 (h.mem _ hr)
  cases hm.symm.trans hm'
  exact SortedMap.contains_iff.2 ⟨r, (MemoryLog.mem_pending hlog).1 hp⟩

def keysFrom (b : Batch) : Nat → List LogModel → List (String × Int64)
  | _, [] => []
  | position, m :: ms => (b.sequencesOf position).map (m.logTable, ·) ++ b.keysFrom (position + 1) ms

theorem mem_keysFrom {position : Nat} {ms : List LogModel} {x : String × Int64} :
    x ∈ b.keysFrom position ms ↔
      ∃ k m, ms[k]? = some m ∧ ∃ n ∈ b.sequencesOf (position + k), (m.logTable, n) = x := by
  induction ms generalizing position with
  | nil => simp [keysFrom]
  | cons m ms ih =>
      rw [keysFrom, List.mem_append, List.mem_map, ih]
      constructor
      · rintro (⟨n, hn, hx⟩ | ⟨k, m', hk, n, hn, hx⟩)
        · exact ⟨0, m, rfl, n, hn, hx⟩
        · rw [Nat.succ_add_eq_add_succ] at hn
          exact ⟨k + 1, m', hk, n, hn, hx⟩
      · rintro ⟨_ | k, m', hk, n, hn, hx⟩
        · cases hk
          exact .inl ⟨n, hn, hx⟩
        · rw [← Nat.succ_add_eq_add_succ] at hn
          exact .inr ⟨k, m', hk, n, hn, hx⟩

end Batch

namespace Poller

variable {κ : Type}

def nextRows (p : Poller κ) (log : MemoryLog) : List Delivery :=
  (log.merged p.models).take p.config.batchSize

/-- The batch of the next poll, if its rows can be decoded. -/
def nextBatch (p : Poller κ) (log : MemoryLog) : Except Failure Batch :=
  (p.nextRows log).foldlM (Batch.add p.models) {}

/-- What the consumers make of a batch. A batch without events is not handed to them. -/
def hand (p : Poller κ) (b : Batch) : Act κ (List String) :=
  if b.events = [] then pure [] else dispatch p.config.policy b.events p.consumers

structure Accepted (p : Poller κ) : Prop where
  batch_pos : 0 < p.config.batchSize
  valid : ∀ m ∈ p.models, m.validate = .ok ()
  nodup : (p.models.map (·.logTable)).Nodup

theorem make_ok {models : List LogModel} {consumers : List (Consumer κ)} {config : PollerConfig}
    {p : Poller κ} (h : make models consumers config = .ok p) :
    p = ⟨models, consumers, config⟩ ∧ p.Accepted := by
  rw [make] at h
  by_cases hs : config.batchSize = 0 ∨ config.windowSize = 0
  · rw [if_pos hs] at h
    cases h
  · rw [if_neg hs] at h
    cases hv : LogModel.validateAll models with
    | error e =>
        rw [hv] at h
        cases h
    | ok u =>
        rw [hv] at h
        cases h
        obtain ⟨hvalid, hnd⟩ := LogModel.validateAll_ok hv
        exact ⟨rfl, Nat.pos_of_ne_zero fun h => hs (.inl h), hvalid, hnd⟩

section

variable {σ : Type} {p : Poller κ} {S : LogStore σ} {log : MemoryLog} {Out : MemoryLog → σ → Prop}
  {In : List (String × Int64) → σ → Prop} {faulty : Prop} {b : Batch}

theorem rows_of_nextBatch (h : p.nextBatch log = .ok b) : b.rows = p.nextRows log :=
  (Batch.rows_of_foldlM h).trans (List.nil_append _)

theorem merged_of_taken (hlog : log.Coherent) (hp : p.Accepted) (h : p.nextBatch log = .ok b) :
    (log.without (MemoryLog.keysOf p.models b.rows)).merged p.models =
      (log.merged p.models).drop p.config.batchSize := by
  rw [rows_of_nextBatch h]
  exact MemoryLog.merged_without hlog hp.nodup p.config.batchSize

theorem nextBatch_from (hlog : log.Coherent) (h : p.nextBatch log = .ok b) :
    b.From log p.models := by
  have hrows := rows_of_nextBatch h
  constructor
  · intro d hd
    rw [hrows] at hd
    exact List.mem_of_mem_take hd
  · rw [hrows]
    exact (Merge.merged_nodup (MemoryLog.ascending_tables hlog p.models)).sublist
      (List.take_sublist ..)

theorem collect_ends (hS : S.Holds log Out In faulty) (hlog : log.Coherent)
    (hmax : ∀ name, ∀ r ∈ log.pending name, r.sequence = Int64.maxValue → faulty) {s : σ}
    (hs : In [] s) :
    Ends (p.collect S) s (fun b t => p.nextBatch log = .ok b ∧ In [] t)
      fun e t => (faulty ∨ p.nextBatch log = .error e) ∧ In [] t := by
  have hf := MemoryLog.fetch_serves hS
  have hasc (m : LogModel) := MemoryLog.pending_ascending hlog m.logTable
  have hmax' (m : LogModel) := hmax m.logTable
  refine collect_ends_of_read ((Merge.start_ends hf hasc hmax' p.models p.config.windowSize hs).seq ?_ ?_)
  · intro e t hend
    obtain ⟨h, ht⟩ := hend
    exact ⟨.inl h, ht⟩
  · rintro _ ⟨m, t⟩ ⟨hm, ht⟩
    exact Merge.foldRows_ends hf hasc hmax' (Batch.add p.models) p.config.batchSize {} hm ht

theorem delete_ends (hS : S.Holds log Out In faulty) (hlog : log.Coherent) (hb : b.From log p.models)
    {position : Nat} {m : LogModel} (hm : p.models[position]? = some m) {gone : List (String × Int64)}
    (hgone : ∀ x ∈ gone, x.1 ≠ m.logTable) {s : σ} (hs : In gone s) :
    Ends (S.delete m (b.sequencesOf position)) s
      (fun n t => (n = (b.sequencesOf position).length ∨ faulty) ∧
        In (((b.sequencesOf position).map (m.logTable, ·)).reverse ++ gone) t)
      fun _ t => faulty ∧ In gone t := by
  have hdelete : (MemoryLog.Tx.mk log gone).delete m.logTable (b.sequencesOf position) = _ :=
    MemoryLog.Tx.delete_eq (hb.sequencesOf_nodup hlog position) (fun n hn => hb.contains hlog hm hn)
      fun n _ hmem => hgone _ hmem rfl
  refine (hS.delete m (b.sequencesOf position) gone s hs).mono ?_ fun _ _ h => h
  rintro n t ⟨hn, ht⟩
  rw [hdelete] at hn ht
  exact ⟨hn.imp_right (·.1), ht⟩

theorem remove_ends (hS : S.Holds log Out In faulty) (hlog : log.Coherent)
    (hb : b.From log p.models) (position : Nat) (ms : List LogModel)
    (hms : p.models.drop position = ms) (hnd : (ms.map (·.logTable)).Nodup)
    {gone : List (String × Int64)} (hgone : ∀ x ∈ gone, x.1 ∉ ms.map (·.logTable)) {s : σ}
    (hs : In gone s) :
    Ends (remove S b position ms) s
      (fun _ t => ∃ gone', In gone' t ∧ ∀ x, x ∈ gone' ↔ x ∈ gone ∨ x ∈ b.keysFrom position ms)
      fun _ t => faulty ∧ ∃ gone', In gone' t := by
  induction ms generalizing position gone s with
  | nil => exact ends_pure ⟨gone, hs, by simp [Batch.keysFrom]⟩
  | cons m ms ih =>
      have hm : p.models[position]? = some m := by
        rw [← List.head?_drop, hms, List.head?_cons]
      have hms' : p.models.drop (position + 1) = ms := by
        rw [← List.tail_drop, hms, List.tail_cons]
      obtain ⟨hfresh, hnd'⟩ := List.nodup_cons.1 hnd
      have hgone' : ∀ x ∈ gone, x.1 ∉ ms.map (·.logTable) :=
        fun x hx hmem => hgone x hx (List.mem_cons_of_mem _ hmem)
      rw [remove]
      by_cases hids : b.sequencesOf position = []
      · rw [if_neg (by simpa using hids)]
        refine (ih (position + 1) hms' hnd' hgone' hs).mono ?_ fun _ _ h => h
        rintro _ t ⟨gone', ht, hx⟩
        refine ⟨gone', ht, fun x => ?_⟩
        rw [hx, Batch.keysFrom, hids, List.map_nil, List.nil_append]
      · rw [if_pos hids]
        have hdelete := delete_ends hS hlog hb hm
          (fun x hx he => hgone x hx (he ▸ List.mem_cons_self ..)) hs
        refine hdelete.seq (fun _ _ h => ⟨h.1, gone, h.2⟩) ?_
        rintro n t ⟨hn, ht⟩
        by_cases hcount : n = (b.sequencesOf position).length
        · rw [if_neg (not_not_intro hcount)]
          have hgone'' : ∀ x ∈ ((b.sequencesOf position).map (m.logTable, ·)).reverse ++ gone,
              x.1 ∉ ms.map (·.logTable) := by
            intro x hx
            rcases List.mem_append.1 hx with hx | hx
            · obtain ⟨n, -, rfl⟩ := List.mem_map.1 (List.mem_reverse.1 hx)
              exact hfresh
            · exact hgone' x hx
          refine (ih (position + 1) hms' hnd' hgone'' ht).mono ?_ fun _ _ h => h
          rintro _ t' ⟨gone', ht', hx⟩
          refine ⟨gone', ht', fun x => ?_⟩
          rw [hx, Batch.keysFrom, List.mem_append, List.mem_reverse, List.mem_append, or_assoc,
            or_left_comm]
        · rw [if_pos hcount]
          exact ends_throw ⟨hn.resolve_left hcount, _, ht⟩

theorem remove_all_ends (hS : S.Holds log Out In faulty) (hlog : log.Coherent)
    (hp : p.Accepted) (hb : b.From log p.models) {s : σ} (hs : In [] s) :
    Ends (remove S b 0 p.models) s
      (fun _ t => ∃ gone, In gone t ∧ ∀ x, x ∈ gone ↔ x ∈ MemoryLog.keysOf p.models b.rows)
      fun _ t => faulty ∧ ∃ gone, In gone t := by
  refine (remove_ends hS hlog hb 0 p.models rfl hp.nodup (by simp) hs).mono ?_ fun _ _ h => h
  intro _ t hend
  obtain ⟨gone, ht, hx⟩ := hend
  refine ⟨gone, ht, fun x => (hx x).trans ?_⟩
  rw [MemoryLog.keysOf, List.mem_filterMap, Batch.mem_keysFrom]
  constructor
  · rintro (h | ⟨k, m, hk, n, hn, rfl⟩)
    · cases h
    · rw [Nat.zero_add] at hn
      obtain ⟨r, hr, rfl⟩ := Batch.mem_sequencesOf.1 hn
      exact ⟨(k, r), hr, by simp [hk]⟩
  · intro hend
    obtain ⟨⟨k, r⟩, hr, he⟩ := hend
    obtain ⟨m, hk, rfl⟩ := Option.map_eq_some_iff.1 he
    refine .inr ⟨k, m, hk, r.sequence, ?_, rfl⟩
    rw [Nat.zero_add]
    exact Batch.mem_sequencesOf.2 ⟨r, hr, rfl⟩

/-- Why a poll of `log` failed with `e`, and what the consumers have made of its batch by then. -/
def Failed (p : Poller κ) (log : MemoryLog) (faulty : Prop) (e : Failure) (k k' : κ) : Prop :=
  ((faulty ∨ p.nextBatch log = .error e) ∧ k' = k) ∨
    ∃ b, p.nextBatch log = .ok b ∧
      (p.hand b k = .error e k' ∨ faulty ∧ ∃ failures, p.hand b k = .ok failures k')

theorem drain_eq (p : Poller κ) (S : LogStore σ) : p.drain S = (do
    let b ← Act.onFst (p.collect S)
    let failures ← Act.onSnd (p.hand b)
    Act.onFst (remove S b 0 p.models)
    return b.report failures) := by
  rw [drain]
  refine congrArg (Act.onFst (p.collect S) >>= ·) (funext fun b => ?_)
  rw [hand]
  by_cases h : b.events = []
  · rw [if_pos h, if_pos h]
    rfl
  · rw [if_neg h, if_neg h]

theorem drain_ends (hS : S.Holds log Out In faulty) (hlog : log.Coherent)
    (hmax : ∀ name, ∀ r ∈ log.pending name, r.sequence = Int64.maxValue → faulty) (hp : p.Accepted)
    {s : σ × κ} (hs : In [] s.1) :
    Ends (p.drain S) s
      (fun report t => ∃ b failures, p.nextBatch log = .ok b ∧ p.hand b s.2 = .ok failures t.2 ∧
        report = b.report failures ∧
        ∃ gone, In gone t.1 ∧ ∀ x, x ∈ gone ↔ x ∈ MemoryLog.keysOf p.models b.rows)
      fun e t => (∃ gone, In gone t.1) ∧ p.Failed log faulty e s.2 t.2 := by
  rw [drain_eq]
  refine (collect_ends hS hlog hmax hs).onFst.seq ?_ ?_
  · intro e t h
    obtain ⟨⟨hc, ht⟩, hk⟩ := h
    exact ⟨⟨[], ht⟩, .inl ⟨hc, hk⟩⟩
  intro b t h
  obtain ⟨⟨hb, ht⟩, hk⟩ := h
  refine (ends_self (p.hand b) t.2).onSnd.seq ?_ ?_
  · intro e t' h
    obtain ⟨he, ht'⟩ := h
    exact ⟨⟨[], ht' ▸ ht⟩, .inr ⟨b, hb, .inl (hk ▸ he)⟩⟩
  intro failures t' h
  obtain ⟨hf, ht'⟩ := h
  rw [hk] at hf
  refine (remove_all_ends hS hlog hp (nextBatch_from hlog hb) (ht' ▸ ht)).onFst.seq ?_ ?_
  · intro e t'' h
    obtain ⟨⟨hfail, hgone⟩, hk'⟩ := h
    exact ⟨hgone, .inr ⟨b, hb, .inr ⟨hfail, failures, hk' ▸ hf⟩⟩⟩
  · intro _ t'' h
    obtain ⟨hgone, hk'⟩ := h
    exact ends_pure ⟨b, failures, hb, hk' ▸ hf, rfl, hgone⟩

/-- A poll that succeeds takes away the rows of its batch, and one that fails takes away none. -/
theorem poll_ends (hS : S.Holds log Out In faulty) (hlog : log.Coherent)
    (hmax : ∀ name, ∀ r ∈ log.pending name, r.sequence = Int64.maxValue → faulty) (hp : p.Accepted)
    {s : σ × κ} (hs : Out log s.1) :
    Ends (p.poll S) s
      (fun report t => ∃ b failures, p.nextBatch log = .ok b ∧ p.hand b s.2 = .ok failures t.2 ∧
        report = b.report failures ∧ Out (log.without (MemoryLog.keysOf p.models b.rows)) t.1)
      fun e t => Out log t.1 ∧ p.Failed log faulty e s.2 t.2 := by
  rw [poll]
  refine (hS.start s.1 hs).onFst.seq ?_ ?_
  · intro e t hend
    obtain ⟨⟨hf, ho⟩, hk⟩ := hend
    exact ⟨ho, .inl ⟨.inl hf, hk⟩⟩
  intro _ t hend
  obtain ⟨ht, hk⟩ := hend
  rw [← hk]
  refine (drain_ends hS hlog hmax hp ht).attempt_bind ?_ ?_
  · intro report t' hend
    obtain ⟨b, failures, hb, hf, rfl, gone, hg, hx⟩ := hend
    have hfail (e : Failure) (t'' : σ × κ) (h : (faulty ∧ Out log t''.1) ∧ t''.2 = t'.2) :
        Out log t''.1 ∧ p.Failed log faulty e t.2 t''.2 :=
      ⟨h.1.2, .inr ⟨b, hb, .inr ⟨h.1.1, failures, h.2 ▸ hf⟩⟩⟩
    dsimp only
    split
    next hempty =>
      refine (hS.rollback gone t'.1 hg).onFst.seq hfail ?_
      intro _ t'' hend
      obtain ⟨ho, hk'⟩ := hend
      refine ends_pure ⟨b, failures, hb, hk' ▸ hf, rfl, ?_⟩
      have hrows : b.rows = [] := by simpa [PollReport.isEmpty, Batch.report] using hempty
      rwa [hrows, show MemoryLog.keysOf p.models [] = [] from rfl, MemoryLog.without_nil]
    next =>
      refine (hS.commit gone t'.1 hg).onFst.seq hfail ?_
      intro _ t'' hend
      obtain ⟨ho, hk'⟩ := hend
      refine ends_pure ⟨b, failures, hb, hk' ▸ hf, rfl, ?_⟩
      rwa [← MemoryLog.without_congr hx]
  · intro e t' hend
    obtain ⟨⟨gone, hg⟩, hfail⟩ := hend
    have hroll : Ends (Act.onFst S.rollback) t' (fun _ t => Out log t.1 ∧ t.2 = t'.2)
        fun _ t => Out log t.1 ∧ t.2 = t'.2 :=
      ((hS.rollback gone t'.1 hg).mono (fun _ _ h => h) fun _ _ h => h.2).onFst
    refine hroll.ignore_bind ?_
    intro t'' hend
    obtain ⟨ho, hk'⟩ := hend
    exact ends_throw ⟨ho, hk' ▸ hfail⟩

end

end Poller

end ChangeFeed
