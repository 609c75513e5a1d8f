import ChangeFeed.Proofs.Log.Interchange

namespace ChangeFeed

open Act LogRow Sql

namespace LogStore

variable {σ : Type} {S : LogStore σ} {m : LogModel}

def deletes (S : LogStore σ) (m : LogModel) : List (List Int64) → Act σ Unit
  | [] => pure ()
  | ids :: rest => do
    let _ ← S.delete m ids
    deletes S m rest

/-- Deletes rows of a table, call after call, and then asks for a window of it. -/
def windowAfter (S : LogStore σ) (m : LogModel) (deleted : List (List Int64))
    (after : Option Int64) (limit : Nat) : Act σ (List LogRow) := do
  S.deletes m deleted
  S.fetch m after limit

theorem deletes_ends {In : List Int64 → σ → Prop} (deleted : List (List Int64))
    (hdelete : ∀ ids ∈ deleted, ∀ gone s, In gone s →
      Ends (S.delete m ids) s (fun _ t => In (gone ++ ids) t) fun _ _ => False)
    {gone : List Int64} {s : σ} (hs : In gone s) :
    Ends (S.deletes m deleted) s (fun _ t => In (gone ++ deleted.flatten) t) fun _ _ => False := by
  induction deleted generalizing gone s with
  | nil =>
      apply ends_pure
      rwa [List.flatten_nil, List.append_nil]
  | cons ids deleted ih =>
      obtain ⟨hfirst, hrest⟩ := List.forall_mem_cons.1 hdelete
      refine (hfirst gone s hs).bind fun _ t ht => ?_
      rw [List.flatten_cons, ← List.append_assoc]
      exact ih hrest ht

theorem windowAfter_outcome (In : List Int64 → σ → Prop) {deleted : List (List Int64)}
    (hdelete : ∀ ids ∈ deleted, ∀ gone s, In gone s →
      Ends (S.delete m ids) s (fun _ t => In (gone ++ ids) t) fun _ _ => False)
    {after : Option Int64} {limit : Nat} {r : Except Failure (List LogRow)}
    (hfetch : ∀ s, In deleted.flatten s → ((S.fetch m after limit).outcome s).1 = r) {s : σ}
    (hs : In [] s) : ((S.windowAfter m deleted after limit).outcome s).1 = r := by
  obtain ⟨_, t, he, ht⟩ := (deletes_ends deleted hdelete hs).exists_ok
  rw [← hfetch t ht, outcome, windowAfter, bind_apply, he]
  rfl

end LogStore

namespace MemoryLog

variable {tx : Tx} {m : LogModel}

theorem windowAfter_eq (h : tx.log.Coherent) (deleted : List (List Int64)) (after : Option Int64)
    (limit : Nat) : ((store.windowAfter m deleted after limit).outcome tx).1 =
      .ok (((tx.visible m.logTable).filter fun r => r.sequence ∉ deleted.flatten ∧
        (after.all (· < r.sequence) ∨
          after = some Int64.maxValue ∧ r.sequence = Int64.maxValue)).take limit) := by
  refine LogStore.windowAfter_outcome (fun gone t => t.log = tx.log ∧
    t.visible m.logTable = (tx.visible m.logTable).filter (·.sequence ∉ gone)) ?_ ?_ ?_
  · rintro ids - gone t ⟨hlog, hview⟩
    have ht : t.log.Coherent := hlog ▸ h
    have hleft := congrFun (Tx.delete_spec ht m ids).2 m.logTable
    rw [LogCall.left, if_pos rfl, hview, ← unlisted_append] at hleft
    exact ⟨(Tx.log_delete t m.logTable ids).trans hlog, hleft⟩
  · rintro t ⟨-, hview⟩
    refine congrArg (fun rows : List LogRow => Except.ok (rows.take limit)) ?_
    rw [hview, List.filter_filter]
    refine List.filter_congr fun r _ => ?_
    rw [Bool.and_comm, Bool.eq_iff_iff, Bool.and_eq_true, decide_eq_true_iff, decide_eq_true_iff]
    refine and_congr_right fun _ => ?_
    cases after with
    | none => simp
    | some n => simp [Window.successor_le]
  · exact ⟨rfl, by simp⟩

end MemoryLog

namespace SqlLog

/-- The database has the log table of a model, as the statement for it creates it, with any rows. -/
structure Installed (m : LogModel) (db : Database) (t : Table) : Prop extends m.Stored t where
  names : m.validateNames = .ok ()
  creatable : m.Creatable
  table : db.table? m.logTable = some t

variable {m : LogModel} {log : SqlLog} {t : Table}

theorem Shows.installed {db : Database} {rows : List LogRow} (h : Shows db m rows)
    (hq : m.Queryable) : ∃ t, Installed m db t ∧ readRows m db t t.rows.toList = .ok rows := by
  obtain ⟨t, hdb, ht⟩ := h.table
  refine ⟨t, ⟨ht.stored h.creatable, h.names, h.creatable, hdb⟩, ?_⟩
  rw [ht.rows]
  exact readRows_cells h.creatable hq ht h.fits

section

variable (hq : m.Queryable)
include hq

theorem readRows_congr (db db' : Database) (t : Table) : readRows m db t = readRows m db' t := by
  have heval (r : Int64 × Row) {c : String} (hc : c ∈ readColumns m) :
      evaluate db t r c = evaluate db' t r c := by
    rw [evaluate_eq (hq c hc), evaluate_eq (hq c hc)]
  have hread : readRow m db t = readRow m db' t := by
    funext r
    have hinteger (n : Nat) {c : String} (hc : c ∈ readColumns m) :
        readInteger db t r n c = readInteger db' t r n c := by
      rw [readInteger, readInteger, heval r hc, Database.valueOf?_eq_none (hq c hc),
        Database.valueOf?_eq_none (hq c hc)]
    have hvalues : (m.logColumns.map fun c => (c, evaluate db t r c)) =
        m.logColumns.map fun c => (c, evaluate db' t r c) :=
      List.map_congr_left fun c hc => congrArg (c, ·)
        (heval r (List.mem_cons_of_mem _ (List.mem_cons_of_mem _ hc)))
    rw [readRow, readRow, hinteger 0 (List.mem_cons_self ..),
      hinteger 1 (List.mem_cons_of_mem _ (List.mem_cons_self ..)), hvalues]
  funext rs
  rw [readRows, readRows, hread]

omit hq in
theorem without_without (t : Table) (as bs : List Int64) :
    (t.without as).without bs = t.without (as ++ bs) := by
  have hrows : ((t.without as).rows.filter fun id _ => id ∉ bs) =
      t.rows.filter fun id _ => id ∉ as ++ bs := by
    refine SortedMap.eq_of_toList ?_
    show (t.rows.toList.filter _).filter _ = t.rows.toList.filter _
    rw [List.filter_filter]
    refine List.filter_congr fun r _ => ?_
    simp [Bool.and_comm]
  rw [Table.without, hrows]
  rfl

theorem Installed.portions_ends (h : Installed m log.db t)
    (hquiet : log.db.triggersOn m.logTable .delete = []) (portions : List (List Int64)) (n : Nat) :
    Ends (portions.foldlM (fun n ids => return n + (← deleteRows m ids)) n) log
      (fun _ log' => Installed m log'.db (t.without portions.flatten) ∧
        log'.db.triggersOn m.logTable .delete = []) fun _ _ => False := by
  induction portions generalizing log t n with
  | nil =>
      rw [List.flatten_nil, Table.without_nil]
      exact ends_pure ⟨h, hquiet⟩
  | cons ids portions ih =>
      have hchange := Database.change_delete [(m.sequenceColumn, ids.map .integer)] h.table h.name
        (by simpa using h.hasColumn m.sequence_mem) hquiet
      rw [h.without_select h.creatable] at hchange
      let left : SqlLog := { log with db := log.db.setTable (t.without ids) }
      have hleft : Installed m left.db (t.without ids) := by
        refine ⟨h.without ids, h.names, h.creatable, ?_⟩
        rw [Database.table?_setTable]
        exact if_pos h.name
      rw [List.foldlM_cons, bind_assoc, deleteRows, bind_assoc]
      apply ends_get_bind
      dsimp only
      rw [deleteQuery_open h.creatable hq h.toStored h.table, hasSequence_eq hq, hchange,
        List.flatten_cons, ← without_without]
      exact ih hleft hquiet _

theorem Installed.delete_ends (h : Installed m log.db t)
    (hquiet : log.db.triggersOn m.logTable .delete = []) (ids : List Int64) :
    Ends (store.delete m ids) log (fun _ log' => Installed m log'.db (t.without ids) ∧
      log'.db.triggersOn m.logTable .delete = []) fun _ _ => False := by
  show Ends (Act.ofExcept (ofModel m.validateNames) >>= fun _ =>
    (chunks deletePortion ids).foldlM (fun n ids => return n + (← deleteRows m ids)) 0) _ _ _
  have hportions := h.portions_ends hq hquiet (chunks deletePortion ids) 0
  rw [flatten_chunks (by decide)] at hportions
  rw [h.names]
  exact hportions

theorem Installed.fetch_outcome (h : Installed m log.db t) (after : Option Int64) (limit : Nat) :
    (store.fetch m after limit).outcome log =
      (readRows m log.db t ((t.rows.toList.filter fun r => after.all (· < r.1) ∧
        ¬ (after = none ∧ r.1 = Int64.minValue)).take limit), log) := by
  have hbound : (t.rows.toList.filter (after.getD Int64.minValue < ·.1)) =
      t.rows.toList.filter fun r => after.all (· < r.1) ∧
        ¬ (after = none ∧ r.1 = Int64.minValue) := by
    refine List.filter_congr fun r _ => ?_
    cases after with
    | none =>
        have hleast : Int64.minValue < r.1 ↔ ¬ r.1 = Int64.minValue :=
          ⟨fun h he => Int64.ne_of_lt h he.symm, fun h =>
            Int64.lt_of_le_of_ne (Int64.minValue_le r.1) (Ne.symm h)⟩
        simp [hleast]
    | some n => simp
  have hfetch : store.fetch m after limit = (do Act.ofExcept (window (← get).db m after limit)) := rfl
  rw [hfetch, outcome_get_bind, outcome_ofExcept, ← hbound,
    window_eq_readRows h.names h.creatable hq h.toStored h.table after limit]

theorem Installed.windowAfter_eq (h : Installed m log.db t) {deleted : List (List Int64)}
    (hquiet : log.db.triggersOn m.logTable .delete = []) (after : Option Int64)
    (limit : Nat) : ((store.windowAfter m deleted after limit).outcome log).1 =
      readRows m log.db t ((t.rows.toList.filter fun r => r.1 ∉ deleted.flatten ∧
        after.all (· < r.1) ∧ ¬ (after = none ∧ r.1 = Int64.minValue)).take limit) := by
  refine LogStore.windowAfter_outcome (fun gone log' => Installed m log'.db (t.without gone) ∧
    log'.db.triggersOn m.logTable .delete = []) ?_ ?_ ?_
  · rintro ids - gone log' ⟨h', hquiet'⟩
    have hend := h'.delete_ends hq hquiet' ids
    rw [without_without] at hend
    exact hend
  · rintro log' ⟨h', -⟩
    have hrows : (t.without deleted.flatten).rows.toList =
        t.rows.toList.filter fun r => r.1 ∉ deleted.flatten := rfl
    rw [h'.fetch_outcome hq, hrows, List.filter_filter]
    refine (congrFun (readRows_congr hq _ log.db t) _).trans ?_
    refine congrArg (fun rs => readRows m log.db t (List.take limit rs)) ?_
    refine List.filter_congr fun r _ => ?_
    rw [Bool.and_comm, Bool.eq_iff_iff, Bool.and_eq_true, decide_eq_true_iff, decide_eq_true_iff,
      decide_eq_true_iff]
  · rw [Table.without_nil]
    exact ⟨h, hquiet⟩

end

section

variable {db : Database} {rows : List LogRow} (hq : m.Queryable) (ht : m.Stored t)
include hq ht

theorem readRow_keepsKey : KeepsKey (readRow m db t) (·.1) (·.sequence) t.rows.toList := by
  intro r hr raw hraw
  obtain ⟨n, hn, hraw⟩ := bind_eq_ok.1 hraw
  obtain ⟨code, -, hraw⟩ := bind_eq_ok.1 hraw
  cases hraw
  rw [readInteger, evaluate_eq (hq _ (List.mem_cons_self ..)), ht.keyed r hr] at hn
  exact (Except.ok.inj hn).symm

omit hq ht in
theorem decodeRow_keepsKey (raws : List RawRow) :
    KeepsKey (decodeRow m) (·.sequence) (·.sequence) raws := by
  intro raw _ row hrow
  obtain ⟨columns, -, hrow⟩ := bind_eq_ok.1 hrow
  cases hrow
  rfl

omit hq ht in
theorem readRows_eq_ok {rs : List (Int64 × Row)} : readRows m db t rs = .ok rows ↔
    ∃ raws, rs.mapM (readRow m db t) = .ok raws ∧ raws.mapM (decodeRow m) = .ok rows := by
  rw [readRows]
  cases rs.mapM (readRow m db t) with
  | error e =>
      constructor
      · intro h
        cases h
      · intro h
        obtain ⟨_, hraws, -⟩ := h
        cases hraws
  | ok raws =>
      constructor
      · intro h
        exact ⟨raws, rfl, h⟩
      · intro h
        obtain ⟨_, hraws, hrows⟩ := h
        cases hraws
        exact hrows

theorem readRows_window (h : readRows m db t t.rows.toList = .ok rows) (p : Int64 → Bool) (n : Nat) :
    readRows m db t ((t.rows.toList.filter fun r => p r.1).take n) =
      .ok ((rows.filter fun r => p r.sequence).take n) := by
  obtain ⟨raws, hraws, hrows⟩ := readRows_eq_ok.1 h
  refine readRows_eq_ok.2 ⟨(raws.filter fun r => p r.sequence).take n, ?_, ?_⟩
  · exact mapM_take ((readRow_keepsKey hq ht).mapM_filter hraws p) n
  · exact mapM_take ((decodeRow_keepsKey raws).mapM_filter hrows p) n

theorem readRows_keys (h : readRows m db t t.rows.toList = .ok rows) :
    rows.map (·.sequence) = t.rows.toList.map (·.1) := by
  obtain ⟨raws, hraws, hrows⟩ := readRows_eq_ok.1 h
  exact ((decodeRow_keepsKey raws).map_eq hrows).trans ((readRow_keepsKey hq ht).map_eq hraws)

theorem readRows_ascending (h : readRows m db t t.rows.toList = .ok rows) : Ascending rows := by
  have hasc : (t.rows.toList.map (·.1)).Pairwise (· < ·) :=
    List.pairwise_map.2 (t.rows.ascending.imp fun h => Std.compare_eq_lt.1 h)
  rw [← readRows_keys hq ht h, List.pairwise_map] at hasc
  exact hasc

end

end SqlLog

end ChangeFeed

namespace ChangeFeed.Sample

open Act LogRow Sql

def leastLog : Database where
  tables := .ofList [("place_log", filled placeLog [placeLog.row Int64.minValue .insert [.integer 7]])]

def loopLog : LogModel where
  logTable := "loop_log"
  watchedTable := "loop_log"
  ids := [⟨"Place", ["place_id"], ["place_id"], .integer⟩]

def loopRows : Database where
  tables := .ofList [("loop_log", filled loopLog [loopLog.row 1 .insert [.integer 7],
    loopLog.row 4 .insert [.integer 7]]), (counterName, counterAt 1)]
  triggers := [.delete, .update, .insert].map loopLog.trigger

end ChangeFeed.Sample
