import ChangeFeed.Proofs.Decoding
import ChangeFeed.Proofs.Log.Transaction
import ChangeFeed.Proofs.Log.Turns

namespace ChangeFeed

open Act LogRow

namespace Delivery

def lt (a b : Delivery) : Prop :=
  a.2.sequence < b.2.sequence ∨ a.2.sequence = b.2.sequence ∧ a.1 < b.1

theorem lt_of_le_of_ne {a b : Delivery} (h : le a b) (hne : a.1 = b.1 → a.2.sequence ≠ b.2.sequence) :
    lt a b := by
  rw [le_iff] at h
  rw [lt, Int64.lt_iff_toInt_lt, ← Int64.toInt_inj]
  rcases h with h | ⟨hs, hp⟩
  · exact .inl h
  · refine .inr ⟨hs, Nat.lt_of_le_of_ne hp ?_⟩
    intro he
    exact hne he (Int64.toInt_inj.1 hs)

end Delivery

namespace Merge

variable {σ : Type} {fetch : FetchWindow σ} {rowsOf : LogModel → List LogRow} {In : σ → Prop}

abbrev Answer := Bool × Except Failure Delivery

def calls (fetch : FetchWindow σ) : Nat → Act (Merge × σ) (List Answer)
  | 0 => pure []
  | n + 1 => do
    let more ← next fetch
    let (m, _) ← get
    return (more, m.current?) :: (← calls fetch n)

/-- Opens a merge and makes so many calls. -/
def reading (fetch : FetchWindow σ) (n : Nat) : Act (Merge × σ) (List Answer) := do
  start fetch
  calls fetch n

/-- The answers of `n` calls that have `ds` to hand out. -/
def answers (ds : List Delivery) (n : Nat) : List Answer :=
  (ds.take n).map (fun d => (true, .ok d)) ++
    List.replicate (n - ds.length) (false, .error .noCurrentRow)

theorem merged_lt {tables : List (List LogRow)} (h : ∀ rows ∈ tables, Ascending rows) :
    (merged tables).Pairwise Delivery.lt := by
  have hp := (merged_pairwise tables).and (merged_nodup h)
  refine hp.imp_of_mem ?_
  rintro ⟨j, r⟩ ⟨k, s⟩ ha hb ⟨hle, hne⟩
  refine Delivery.lt_of_le_of_ne hle ?_
  rintro rfl hs
  obtain ⟨i, rows, rfl, hi, hr⟩ := mem_tagged.1 (mem_merged.1 ha)
  obtain ⟨i', rows', hj, hi', hs'⟩ := mem_tagged.1 (mem_merged.1 hb)
  obtain rfl : i = i' := by omega
  cases hi.symm.trans hi'
  exact hne (congrArg _ ((h rows (List.mem_of_getElem? hi)).eq_of_sequence hr hs' hs))

structure Ended (m : Merge) : Prop where
  opened : m.opened = true
  finished : m.finished = true
  current : m.current = none

theorem calls_ended {m : Merge} (hm : m.Ended) (n : Nat) (s : σ) :
    calls fetch n (m, s) = .ok (List.replicate n (false, .error .noCurrentRow)) (m, s) := by
  induction n with
  | zero => rfl
  | succ n ih =>
      have hc : m.current? = .error .noCurrentRow := by rw [current?, hm.current]
      rw [calls, bind_apply, next_of_finished fetch s hm.opened hm.finished]
      show ((calls fetch n >>= fun as => pure ((false, m.current?) :: as)) : Act (Merge × σ) _) (m, s) = _
      rw [bind_apply, ih, hc]
      rfl

theorem next_marks (fetch : FetchWindow σ) {m : Merge} (hopen : m.opened = true)
    (hfin : m.finished = false) (s : σ) :
    Ends (next fetch) (m, s)
      (fun more t => if more then t.1.finished = false else t.1.Ended) fun _ _ => True := by
  rw [next]
  apply ends_get_bind
  simp only [hopen, hfin, not_true_eq_false, if_false, Bool.false_eq_true]
  cases leastHead 0 m.windows with
  | none => exact ends_modify_bind (ends_pure ⟨hopen, rfl, rfl⟩)
  | some d =>
      obtain ⟨i, row⟩ := d
      dsimp only
      apply ends_modify_bind
      split
      next w _ =>
        split
        · refine ((ends_any (w.fill fetch m.size) s).onSnd).seq (fun _ _ _ => trivial) ?_
          rintro w' ⟨m', t⟩ ⟨-, hm'⟩
          cases hm'
          exact ends_modify_bind (ends_modify_bind (ends_pure hfin))
        · exact ends_modify_bind (ends_pure hfin)
      next => exact ends_modify_bind (ends_pure hfin)

theorem start_unfinished (fetch : FetchWindow σ) (models : List LogModel) (size : Nat) (s : σ) :
    Ends (start fetch) (Merge.new models size, s) (fun _ t => t.1.finished = false)
      fun _ _ => True := by
  rw [start]
  apply ends_get_bind
  refine ((ends_any _ s).onSnd (s := (Merge.new models size, s))).seq (fun _ _ _ => trivial) ?_
  rintro ws ⟨m, t⟩ ⟨-, hm⟩
  cases hm
  exact ends_modify rfl

theorem calls_ends (hf : fetch.Serves rowsOf In False) (hasc : ∀ m, Ascending (rowsOf m))
    (hmax : ∀ m, ∀ r ∈ rowsOf m, r.sequence = Int64.maxValue → False) (n : Nat) {m : Merge}
    {ds : List Delivery} (hm : m.Reads rowsOf ds) (hfin : m.finished = false) {s : σ} (hs : In s) :
    Ends (calls fetch n) (m, s) (fun as _ => as = answers ds n) fun _ _ => False := by
  induction n generalizing m ds s with
  | zero =>
      apply ends_pure
      simp [answers]
  | succ n ih =>
      rw [calls]
      have hnext := (next_ends hf hasc hmax hm hs).and (next_marks fetch hm.opened hfin s)
      refine hnext.seq (fun _ _ h => h.1.1) ?_
      rintro more ⟨m', s'⟩ ⟨⟨hadv, hs'⟩, hmark⟩
      apply ends_get_bind
      cases ds with
      | nil =>
          obtain rfl : more = false := hadv
          have hend : m'.Ended := by simpa using hmark
          have hc : m'.current? = .error .noCurrentRow := by rw [current?, hend.current]
          dsimp only
          rw [Ends, bind_apply, calls_ended hend, hc]
          simp [answers, pure, EStateM.pure, List.replicate_succ]
      | cons d rest =>
          obtain ⟨rfl, hc, hr⟩ := hadv
          have hfin' : m'.finished = false := by simpa using hmark
          refine (ih hr hfin' hs').bind ?_
          rintro as t rfl
          apply ends_pure
          rw [current?, show m'.current = some d from hc]
          simp [answers]

end Merge

namespace MemoryLog

variable {log : MemoryLog}

/-- A merge over the tables of a log hands out every row of every table once, with the position of
its table, by sequence id and then by that position. No call fails, and the calls after the last row
find nothing. -/
theorem reading_delivers (h : log.Coherent)
    (hmax : ∀ name, ∀ r ∈ log.pending name, r.sequence ≠ Int64.maxValue) (models : List LogModel)
    (size : Nat) : ∃ ds : List Delivery,
      ds.Pairwise Delivery.lt ∧
      (∀ k r, (k, r) ∈ ds ↔ ∃ m, models[k]? = some m ∧ r ∈ log.pending m.logTable) ∧
      (∀ n, ∃ t, Merge.reading store.fetch n (Merge.new models size, ⟨log, []⟩) =
        .ok (Merge.answers ds n) t) ∧
      Failure.noCurrentRow.kind = .invalidState := by
  refine ⟨log.merged models, Merge.merged_lt (ascending_tables h models), fun k r => mem_merged, ?_,
    rfl⟩
  intro n
  have hf := fetch_serves (store_holds log False)
  have hasc : ∀ m : LogModel, Ascending (log.pending m.logTable) :=
    fun m => pending_ascending h m.logTable
  have hmax' : ∀ m : LogModel, ∀ r ∈ log.pending m.logTable, r.sequence = Int64.maxValue → False :=
    fun m r hr => hmax m.logTable r hr
  have hread : Ends (Merge.reading store.fetch n) (Merge.new models size, ⟨log, []⟩)
      (fun as _ => as = Merge.answers (log.merged models) n) fun _ _ => False := by
    rw [Merge.reading]
    have hstart := (Merge.start_ends hf hasc hmax' models size (s := ⟨log, []⟩) rfl).and
      (Merge.start_unfinished store.fetch models size ⟨log, []⟩)
    refine hstart.seq (fun _ _ h => h.1.1) ?_
    rintro _ ⟨m, s⟩ ⟨⟨hm, hs⟩, hfin⟩
    exact Merge.calls_ends hf hasc hmax' n hm hfin hs
  obtain ⟨as, t, he, rfl⟩ := hread.exists_ok
  exact ⟨t, he⟩

end MemoryLog

end ChangeFeed

namespace ChangeFeed.Sample

def spellLog : LogModel where
  logTable := "spell_log"
  watchedTable := "spell"
  ids := [⟨"Spell", ["spell_id"], ["id"], .integer⟩]

def twoTables : List (String × LogRow) :=
  [("place_log", placeLog.row 4 .insert [.integer 7, .integer 42]),
    ("spell_log", spellLog.row 5 .update [.integer 1]),
    ("place_log", placeLog.row (-2) .delete [.integer 8, .integer 42]),
    ("spell_log", spellLog.row (-3) .insert [.integer 2])]

theorem reading_twoTables :
    (MemoryLog.ofRows twoTables).Coherent ∧
      (∀ name, ∀ r ∈ (MemoryLog.ofRows twoTables).pending name, r.sequence ≠ Int64.maxValue) ∧
      ∃ ds : List Delivery,
        ds.Pairwise Delivery.lt ∧
        (∀ k r, (k, r) ∈ ds ↔ ∃ m, [placeLog, spellLog][k]? = some m ∧
          r ∈ (MemoryLog.ofRows twoTables).pending m.logTable) ∧
        (∀ n, ∃ t, Merge.reading MemoryLog.store.fetch n
            (Merge.new [placeLog, spellLog] 0, ⟨MemoryLog.ofRows twoTables, []⟩) =
          .ok (Merge.answers ds n) t) ∧
        Failure.noCurrentRow.kind = .invalidState := by
  have hc : (MemoryLog.ofRows twoTables).Coherent := MemoryLog.coherent_ofRows _
  have hmax : ∀ name, ∀ r ∈ (MemoryLog.ofRows twoTables).pending name,
      r.sequence ≠ Int64.maxValue := by
    intro name r hr
    obtain ⟨x, hx, rfl⟩ := MemoryLog.mem_pending_ofRows hr
    exact (by decide : ∀ x ∈ twoTables, x.2.sequence ≠ Int64.maxValue) x hx
  exact ⟨hc, hmax, MemoryLog.reading_delivers hc hmax [placeLog, spellLog] 0⟩

end ChangeFeed.Sample
