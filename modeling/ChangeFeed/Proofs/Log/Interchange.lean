import ChangeFeed.Proofs.Capture.Installed
import ChangeFeed.Proofs.Log.Calls
import ChangeFeed.Proofs.Log.SqlTable

namespace ChangeFeed

open Act LogRow Sql

inductive LogCall where
  | fetch (m : LogModel) (after : Option Int64) (limit : Nat)
  | delete (m : LogModel) (ids : List Int64)

inductive LogAnswer where
  | rows (rows : List LogRow)
  | count (n : Nat)
  deriving DecidableEq

abbrev LogView := String → List LogRow

namespace LogCall

def model : LogCall → LogModel
  | fetch m .. | delete m _ => m

def bound : LogCall → Option Int64
  | fetch _ after _ => after
  | delete .. => none

/-- What a call answers. A deletion counts the distinct ids that are there. -/
def reply (v : LogView) : LogCall → LogAnswer
  | fetch m after limit =>
    .rows (((v m.logTable).filter fun r => after.all (· < r.sequence)).take limit)
  | delete m ids =>
    .count ((sortDistinct ids).filter (· ∈ (v m.logTable).map (·.sequence))).length

/-- What is seen after a call. -/
def left (v : LogView) : LogCall → LogView
  | fetch .., name => v name
  | delete m ids, name => if name = m.logTable then (v name).filter (·.sequence ∉ ids) else v name

def replies (v : LogView) : List LogCall → List LogAnswer
  | [] => []
  | c :: cs => c.reply v :: replies (c.left v) cs

end LogCall

namespace LogStore

variable {σ : Type}

def answer (S : LogStore σ) : LogCall → Act σ LogAnswer
  | .fetch m after limit => return .rows (← S.fetch m after limit)
  | .delete m ids => return .count (← S.delete m ids)

def finish (S : LogStore σ) : Ending → Act σ Unit
  | .commit => S.commit
  | .rollback => S.rollback
  | .drop => modify S.abandon

/-- A whole transaction: some calls and an ending. -/
def transact (S : LogStore σ) (calls : List LogCall) (ending : Ending) :
    Act σ (List LogAnswer) := do
  S.start
  let answers ← calls.mapM S.answer
  S.finish ending
  return answers

/-- In a transaction, the store answers the admitted calls as what it shows would have it. -/
def Answers (S : LogStore σ) (Shown : LogView → σ → Prop) (admitted : LogCall → Prop) : Prop :=
  ∀ c v s, admitted c → Shown v s →
    Ends (S.answer c) s (fun a t => a = c.reply v ∧ Shown (c.left v) t) fun _ _ => False

theorem Answers.mapM {S : LogStore σ} {Shown : LogView → σ → Prop} {admitted : LogCall → Prop}
    (h : S.Answers Shown admitted) (calls : List LogCall) (hcalls : ∀ c ∈ calls, admitted c)
    {v : LogView} {s : σ} (hs : Shown v s) :
    Ends (calls.mapM S.answer) s
      (fun as t => as = LogCall.replies v calls ∧ Shown (calls.foldl LogCall.left v) t)
      fun _ _ => False := by
  induction calls generalizing v s with
  | nil => exact ⟨rfl, hs⟩
  | cons c calls ih =>
      obtain ⟨hc, hcalls⟩ := List.forall_mem_cons.1 hcalls
      rw [List.mapM_cons]
      refine (h c v s hc hs).bind ?_
      rintro a t ⟨rfl, ht⟩
      refine (ih hcalls ht).bind ?_
      rintro as t' ⟨rfl, ht'⟩
      exact ends_pure ⟨rfl, ht'⟩

theorem Answers.transact {S : LogStore σ} {Shown : LogView → σ → Prop} {admitted : LogCall → Prop}
    {Done : σ → Prop} (h : S.Answers Shown admitted) {calls : List LogCall}
    (hcalls : ∀ c ∈ calls, admitted c) {ending : Ending} {v : LogView} {s : σ}
    (hstart : Ends S.start s (fun _ t => Shown v t) fun _ _ => False)
    (hfinish : ∀ t, Shown (calls.foldl LogCall.left v) t →
      Ends (S.finish ending) t (fun _ t => Done t) fun _ _ => False) :
    ∃ t, S.transact calls ending s = .ok (LogCall.replies v calls) t ∧ Done t := by
  have hrun : Ends (S.transact calls ending) s
      (fun as t => as = LogCall.replies v calls ∧ Done t) fun _ _ => False := by
    rw [LogStore.transact]
    refine hstart.bind ?_
    intro _ t ht
    refine (h.mapM calls hcalls ht).bind ?_
    rintro as t' ⟨rfl, ht'⟩
    refine (hfinish t' ht').bind ?_
    intro _ t'' hdone
    exact ends_pure ⟨rfl, hdone⟩
  obtain ⟨as, t, he, rfl, ht⟩ := hrun.exists_ok
  exact ⟨t, he, ht⟩

end LogStore

namespace LogRow

variable {rows : List LogRow}

theorem length_listed (h : Ascending rows) (ids : List Int64) :
    ((sortDistinct ids).filter (· ∈ rows.map (·.sequence))).length =
      (rows.filter (·.sequence ∈ ids)).length := by
  have hnd : ((rows.filter (·.sequence ∈ ids)).map (·.sequence)).Nodup := by
    refine List.pairwise_map.2 ((h.filter _).imp ?_)
    intro a b hab he
    exact Int64.ne_of_lt hab he
  have hperm : ((sortDistinct ids).filter (· ∈ rows.map (·.sequence))).Perm
      ((rows.filter (·.sequence ∈ ids)).map (·.sequence)) := by
    refine (List.perm_ext_iff_of_nodup ((sortDistinct_nodup ids).sublist List.filter_sublist) hnd).2 ?_
    intro n
    simp only [List.mem_filter, mem_sortDistinct, List.mem_map, decide_eq_true_iff]
    constructor
    · rintro ⟨hn, r, hr, rfl⟩
      exact ⟨r, ⟨hr, hn⟩, rfl⟩
    · rintro ⟨r, ⟨hr, hn⟩, rfl⟩
      exact ⟨hn, r, hr, rfl⟩
  rw [hperm.length_eq, List.length_map]

theorem listed_nil (rows : List LogRow) : rows.filter (·.sequence ∈ []) = [] :=
  List.filter_eq_nil_iff.2 (by simp)

theorem listed_append (rows : List LogRow) (as bs : List Int64) :
    (rows.filter (·.sequence ∈ as ++ bs)).length =
      (rows.filter (·.sequence ∈ as)).length +
        ((rows.filter (·.sequence ∉ as)).filter (·.sequence ∈ bs)).length := by
  induction rows with
  | nil => rfl
  | cons r rows ih =>
      by_cases ha : r.sequence ∈ as
      · simp_all
        omega
      · by_cases hb : r.sequence ∈ bs
        · simp_all
          omega
        · simp_all

theorem unlisted_append (rows : List LogRow) (as bs : List Int64) :
    rows.filter (·.sequence ∉ as ++ bs) =
      (rows.filter (·.sequence ∉ as)).filter (·.sequence ∉ bs) := by
  rw [List.filter_filter]
  refine List.filter_congr fun r _ => ?_
  simp [Bool.and_comm]

end LogRow

namespace LogCall

variable {v : LogView} {m : LogModel}

theorem left_delete_nil (v : LogView) (m : LogModel) : (delete m []).left v = v := by
  funext name
  simp [left]

theorem left_delete_append (v : LogView) (m : LogModel) (as bs : List Int64) :
    (delete m (as ++ bs)).left v = (delete m bs).left ((delete m as).left v) := by
  funext name
  by_cases hname : name = m.logTable
  · simp only [left, hname, if_true, unlisted_append]
  · simp only [left, hname, if_false]

theorem mem_of_mem_left {c : LogCall} {name : String} {r : LogRow} (h : r ∈ c.left v name) :
    r ∈ v name := by
  cases c with
  | fetch => exact h
  | delete m ids =>
      rw [left] at h
      split at h
      next => exact (List.mem_filter.1 h).1
      next => exact h

theorem reply_delete (h : Ascending (v m.logTable)) (ids : List Int64) : (delete m ids).reply v =
    .count ((v m.logTable).filter (·.sequence ∈ ids)).length := by
  rw [reply, length_listed h]

end LogCall

namespace MemoryLog

open LogCall

variable {log : MemoryLog} {tx : Tx} {name : String}

theorem Tx.visible_ascending (h : tx.log.Coherent) (name : String) : Ascending (tx.visible name) :=
  (pending_ascending h name).filter _

theorem Tx.visible_cons (tx : Tx) (m : LogModel) (n : Int64) :
    visible { tx with deleted := (m.logTable, n) :: tx.deleted } =
      (LogCall.delete m [n]).left tx.visible := by
  funext name
  rw [left]
  split
  next hname =>
    simp only [visible, List.filter_filter, hname]
    refine List.filter_congr fun r _ => ?_
    simp
  next hname =>
    refine List.filter_congr fun r _ => ?_
    simp [hname]

theorem Tx.mem_visible (h : tx.log.Coherent) {n : Int64} :
    n ∈ (tx.visible name).map (·.sequence) ↔
      (tx.log.table name).contains n ∧ (name, n) ∉ tx.deleted := by
  simp only [visible, List.mem_map, List.mem_filter, decide_eq_true_iff]
  constructor
  · rintro ⟨r, ⟨hr, hn⟩, rfl⟩
    exact ⟨SortedMap.contains_iff.2 ⟨r, (mem_pending h).1 hr⟩, hn⟩
  · rintro ⟨hc, hn⟩
    obtain ⟨r, hr⟩ := SortedMap.contains_iff.1 hc
    obtain rfl := h name n r hr
    exact ⟨r, ⟨(mem_pending h).2 hr, hn⟩, rfl⟩

theorem Tx.delete_spec (h : tx.log.Coherent) (m : LogModel) (ids : List Int64) :
    (tx.delete m.logTable ids).1 = ((tx.visible m.logTable).filter (·.sequence ∈ ids)).length ∧
      (tx.delete m.logTable ids).2.visible = (LogCall.delete m ids).left tx.visible := by
  induction ids generalizing tx with
  | nil =>
      rw [left_delete_nil, listed_nil]
      exact ⟨rfl, rfl⟩
  | cons n ids ih =>
      have hfirst := length_listed (visible_ascending h m.logTable) [n]
      rw [show sortDistinct [n] = [n] from rfl] at hfirst
      rw [show n :: ids = [n] ++ ids from rfl, listed_append, left_delete_append, ← hfirst,
        ← visible_cons]
      rw [List.singleton_append, delete]
      by_cases hn : n ∈ (tx.visible m.logTable).map (·.sequence)
      · rw [if_pos ((mem_visible h).1 hn)]
        have hc : (Tx.log { tx with deleted := (m.logTable, n) :: tx.deleted }).Coherent := h
        obtain ⟨hcount, hleft⟩ := ih hc
        refine ⟨?_, hleft⟩
        have hhere : (tx.visible m.logTable).filter (·.sequence ∉ [n]) =
            visible { tx with deleted := (m.logTable, n) :: tx.deleted } m.logTable := by
          rw [visible_cons, left, if_pos rfl]
        rw [hhere, ← hcount, List.filter_cons_of_pos (by simpa using hn), Nat.add_comm]
        rfl
      · rw [if_neg fun hin => hn ((mem_visible h).2 hin)]
        have hsame : (tx.visible m.logTable).filter (·.sequence ∉ [n]) = tx.visible m.logTable := by
          refine List.filter_eq_self.2 fun r hr => ?_
          simp only [List.mem_singleton, decide_eq_true_iff]
          exact fun he => hn (List.mem_map.2 ⟨r, hr, he⟩)
        have hview : visible { tx with deleted := (m.logTable, n) :: tx.deleted } = tx.visible := by
          funext name
          rw [visible_cons, left]
          split
          next hname => rw [hname, hsame]
          next => rfl
        rw [hsame, hview, List.filter_cons_of_neg (by simpa using hn), List.filter_nil,
          List.length_nil, Nat.zero_add]
        exact ih h

theorem store_answers (h : log.Coherent) :
    store.Answers (fun v tx => tx.log = log ∧ tx.visible = v)
      fun c => c.bound ≠ some Int64.maxValue := by
  rintro c v tx hc ⟨rfl, rfl⟩
  cases c with
  | fetch m after limit =>
      refine ⟨?_, rfl, rfl⟩
      have hafter : (fun r : LogRow => after.all (successor · ≤ r.sequence)) =
          fun r => after.all (· < r.sequence) :=
        funext fun r => Window.all_successor_eq fun he => absurd he hc
      show LogAnswer.rows (((tx.visible m.logTable).filter _).take limit) = _
      rw [hafter, reply]
  | delete m ids =>
      obtain ⟨hcount, hleft⟩ := Tx.delete_spec h m ids
      refine ⟨?_, Tx.log_delete tx m.logTable ids, hleft⟩
      rw [reply_delete (Tx.visible_ascending h m.logTable), ← hcount]

theorem transact_eq (h : log.Coherent) (calls : List LogCall)
    (hcalls : ∀ c ∈ calls, c.bound ≠ some Int64.maxValue) (ending : Ending) : ∃ log',
    store.transact calls ending ⟨log, []⟩ = .ok (replies log.pending calls) ⟨log', []⟩ ∧
      (ending = .commit → log'.pending = calls.foldl left log.pending) ∧
      (ending ≠ .commit → log' = log) := by
  have hvisible : Tx.visible ⟨log, []⟩ = log.pending := by
    funext name
    simp [Tx.visible]
  suffices hfinish : ∀ tx, tx.log = log ∧ tx.visible = calls.foldl left log.pending →
      Ends (store.finish ending) tx (fun _ tx => tx.deleted = [] ∧
        (ending = .commit → tx.log.pending = calls.foldl left log.pending) ∧
        (ending ≠ .commit → tx.log = log)) fun _ _ => False by
    obtain ⟨⟨log', _⟩, he, rfl, hleft, hkept⟩ :=
      (store_answers h).transact hcalls (ends_modify (s := ⟨log, []⟩) ⟨rfl, hvisible⟩) hfinish
    exact ⟨log', he, hleft, hkept⟩
  rintro tx ⟨rfl, hleft⟩
  cases ending with
  | commit =>
      refine ends_modify ⟨rfl, ?_, fun hn => absurd rfl hn⟩
      intro _
      rw [← hleft]
      funext name
      exact pending_without h tx.deleted name
  | rollback => exact ends_modify ⟨rfl, (by rintro ⟨⟩), fun _ => rfl⟩
  | drop => exact ends_modify ⟨rfl, (by rintro ⟨⟩), fun _ => rfl⟩

end MemoryLog

namespace SqlLog

open LogCall

variable {db : Database} {models : List LogModel} {v : LogView}

/-- The database shows a table of rows for every model. -/
def Mirrors (models : List LogModel) (db : Database) (v : LogView) : Prop :=
  ∀ m ∈ models, Shows db m (v m.logTable)

instance (models : List LogModel) (db : Database) (v : LogView) :
    Decidable (Mirrors models db v) := by
  unfold Mirrors
  infer_instance

section

variable (hnames : ∀ m ∈ models, ∀ m' ∈ models,
  sameName m.logTable m'.logTable → m.logTable = m'.logTable)
include hnames

theorem portions_ends {m : LogModel} (hm : m ∈ models) (hq : m.Queryable)
    (hquiet : db.triggersOn m.logTable .delete = []) {saved : Option Database}
    (portions : List (List Int64)) (n : Nat) (h : Mirrors models db v) :
    Ends (portions.foldlM (fun n ids => return n + (← deleteRows m ids)) n) ⟨db, saved⟩
      (fun k log => k = n + ((v m.logTable).filter (·.sequence ∈ portions.flatten)).length ∧
        log.saved = saved ∧ log.db.triggers = db.triggers ∧
        Mirrors models log.db ((LogCall.delete m portions.flatten).left v))
      fun _ _ => False := by
  induction portions generalizing db v n with
  | nil =>
      rw [List.flatten_nil, left_delete_nil, LogRow.listed_nil]
      exact ⟨rfl, rfl, rfl, h⟩
  | cons ids portions ih =>
      rw [List.foldlM_cons, bind_assoc]
      refine (deleteRows_ends hnames h hm hq hquiet ids).bind ?_
      rintro k ⟨db', saved'⟩ ⟨rfl, rfl, htriggers, hdb'⟩
      rw [pure_bind]
      have hview : Mirrors models db' ((LogCall.delete m ids).left v) := hdb'
      have hquiet' : db'.triggersOn m.logTable .delete = [] :=
        (Database.triggersOn_congr htriggers (sameName_self _) _).trans hquiet
      refine (ih hquiet' _ hview).mono ?_ fun _ _ h => h
      rintro k log ⟨rfl, hsaved, hsame, hlog⟩
      rw [List.flatten_cons, left_delete_append, LogRow.listed_append]
      refine ⟨?_, hsaved, hsame.trans htriggers, hlog⟩
      rw [left, if_pos rfl, Nat.add_assoc]

theorem store_answers (saved : Option Database) :
    store.Answers
      (fun v log => log.saved = saved ∧ log.db.triggers = db.triggers ∧ Mirrors models log.db v ∧
        ∀ m ∈ models, ∀ r ∈ v m.logTable, Int64.minValue < r.sequence)
      fun c => c.model ∈ models ∧ c.model.Queryable ∧
        ∀ m ids, c = .delete m ids → db.triggersOn m.logTable .delete = [] := by
  rintro c v ⟨db', saved'⟩ ⟨hc, hq, hquiet⟩ ⟨rfl, htriggers, hdb, hmin⟩
  cases c with
  | fetch m after limit =>
      have hfetch : Ends (store.fetch m after limit) ⟨db', saved'⟩
          (fun rows log =>
            rows = ((v m.logTable).filter fun r => after.all (· < r.sequence)).take limit ∧
              log = ⟨db', saved'⟩) fun _ _ => False := by
        show Ends (get >>= fun log : SqlLog => Act.ofExcept (window log.db m after limit)) _ _ _
        apply ends_get_bind
        rw [window_eq (hdb m hc) hq (hmin m hc)]
        exact ⟨rfl, rfl⟩
      refine hfetch.bind ?_
      rintro rows log ⟨rfl, rfl⟩
      exact ends_pure ⟨rfl, rfl, htriggers, hdb, hmin⟩
  | delete m ids =>
      have hquiet' : db'.triggersOn m.logTable .delete = [] :=
        (Database.triggersOn_congr htriggers (sameName_self _) _).trans (hquiet m ids rfl)
      have hdelete : Ends (store.delete m ids) ⟨db', saved'⟩
          (fun n log => n = ((v m.logTable).filter (·.sequence ∈ ids)).length ∧
            log.saved = saved' ∧ log.db.triggers = db'.triggers ∧
            Mirrors models log.db ((LogCall.delete m ids).left v))
          fun _ _ => False := by
        show Ends (Act.ofExcept (ofModel m.validateNames) >>= fun _ =>
          (chunks deletePortion ids).foldlM (fun n ids => return n + (← deleteRows m ids)) 0) _ _ _
        rw [(hdb m hc).names]
        have hportions : Ends _ (SqlLog.mk db' saved') _ _ :=
          portions_ends hnames hc hq hquiet' (chunks deletePortion ids) 0 hdb
        rw [flatten_chunks (by decide), Nat.zero_add] at hportions
        exact hportions
      refine hdelete.bind ?_
      rintro n log ⟨rfl, hsaved, hsame, hlog⟩
      refine ends_pure ⟨(reply_delete (hdb m hc).ascending ids).symm, hsaved, hsame.trans htriggers,
        hlog, ?_⟩
      intro m' hm' r hr
      exact hmin m' hm' r (mem_of_mem_left hr)

theorem transact_eq (hdb : Mirrors models db v)
    (hmin : ∀ m ∈ models, ∀ r ∈ v m.logTable, Int64.minValue < r.sequence) (calls : List LogCall)
    (hcalls : ∀ c ∈ calls, c.model ∈ models) (hwords : ∀ c ∈ calls, c.model.Queryable)
    (hquiet : ∀ m ids, .delete m ids ∈ calls → db.triggersOn m.logTable .delete = [])
    (ending : Ending) : ∃ db',
    store.transact calls ending ⟨db, none⟩ = .ok (replies v calls) ⟨db', none⟩ ∧
      (ending = .commit → Mirrors models db' (calls.foldl left v)) ∧ (ending ≠ .commit → db' = db) := by
  suffices hfinish : ∀ log, log.saved = some db ∧ log.db.triggers = db.triggers ∧
      Mirrors models log.db (calls.foldl left v) ∧
      (∀ m ∈ models, ∀ r ∈ calls.foldl left v m.logTable, Int64.minValue < r.sequence) →
      Ends (store.finish ending) log (fun _ log => log.saved = none ∧
        (ending = .commit → Mirrors models log.db (calls.foldl left v)) ∧
        (ending ≠ .commit → log.db = db)) fun _ _ => False by
    have hadmitted (c : LogCall) (hc : c ∈ calls) : c.model ∈ models ∧ c.model.Queryable ∧
        ∀ m ids, c = .delete m ids → db.triggersOn m.logTable .delete = [] :=
      ⟨hcalls c hc, hwords c hc, fun m ids he => hquiet m ids (he ▸ hc)⟩
    obtain ⟨⟨db', _⟩, he, rfl, hleft, hkept⟩ := (store_answers hnames (some db)).transact hadmitted
      (ends_modify (s := ⟨db, none⟩) ⟨rfl, rfl, hdb, hmin⟩) hfinish
    exact ⟨db', he, hleft, hkept⟩
  rintro ⟨db', saved⟩ ⟨rfl, -, hdb', -⟩
  cases ending with
  | commit => exact ends_modify ⟨rfl, fun _ => hdb', fun hn => absurd rfl hn⟩
  | rollback => exact ends_modify ⟨rfl, (by rintro ⟨⟩), fun _ => rfl⟩
  | drop => exact ends_modify ⟨rfl, (by rintro ⟨⟩), fun _ => rfl⟩

end

end SqlLog

section

open LogCall

variable {log : MemoryLog} {db : Database} {models : List LogModel}

/-- The same calls in a transaction on either store get the same answers, which are those of lists of
rows, and leave the same rows in both: what a commit keeps of them, or all of them otherwise. The
columns must be columns in a query, and nothing may watch what is deleted from a log table. -/
theorem transact_interchangeable (hlog : log.Coherent)
    (hmin : ∀ m ∈ models, ∀ r ∈ log.pending m.logTable, Int64.minValue < r.sequence)
    (hnames : ∀ m ∈ models, ∀ m' ∈ models, sameName m.logTable m'.logTable → m.logTable = m'.logTable)
    (hdb : SqlLog.Mirrors models db log.pending) (calls : List LogCall)
    (hcalls : ∀ c ∈ calls, c.model ∈ models ∧ c.bound ≠ some Int64.maxValue)
    (hwords : ∀ c ∈ calls, c.model.Queryable)
    (hquiet : ∀ m ids, .delete m ids ∈ calls → db.triggersOn m.logTable .delete = [])
    (ending : Ending) :
    ∃ log' db',
      MemoryLog.store.transact calls ending ⟨log, []⟩ = .ok (replies log.pending calls) ⟨log', []⟩ ∧
      SqlLog.store.transact calls ending ⟨db, none⟩ = .ok (replies log.pending calls) ⟨db', none⟩ ∧
      SqlLog.Mirrors models db' log'.pending ∧
      (ending = .commit → log'.pending = calls.foldl left log.pending) ∧
      (ending ≠ .commit → log' = log ∧ db' = db) := by
  obtain ⟨log', hmemory, hleft, hkept⟩ :=
    MemoryLog.transact_eq hlog calls (fun c hc => (hcalls c hc).2) ending
  obtain ⟨db', hsql, hleft', hkept'⟩ := SqlLog.transact_eq hnames hdb hmin calls
    (fun c hc => (hcalls c hc).1) hwords hquiet ending
  refine ⟨log', db', hmemory, hsql, ?_, hleft, fun h => ⟨hkept h, hkept' h⟩⟩
  by_cases h : ending = .commit
  · rw [hleft h]
    exact hleft' h
  · rw [hkept h, hkept' h]
    exact hdb

end

end ChangeFeed

namespace ChangeFeed.Sample

open Sql

def filled (m : LogModel) (rows : List LogRow) : Table :=
  { Sql.logTable m.logTable m.tableColumns with
    rows := .ofList (rows.map fun r => (r.sequence, m.cells r)) }

def twoLogs : Database where
  tables := .ofList [
    ("place_log", filled placeLog [placeLog.row (-2) .delete [.integer 8, .integer 42],
      placeLog.row 4 .insert [.integer 7, .integer 42]]),
    ("spell_log", filled spellLog [spellLog.row (-3) .insert [.integer 2],
      spellLog.row 5 .update [.integer 1]])]

theorem twoLogs_triggers : twoLogs.triggers = [] := rfl

theorem mirrors_twoLogs :
    SqlLog.Mirrors [placeLog, spellLog] twoLogs (MemoryLog.ofRows twoTables).pending := by
  decide +kernel

def twoLogsCalls : List LogCall :=
  [.fetch placeLog none 5, .delete placeLog [4, 4, 9], .fetch placeLog (some (-5)) 1,
    .delete spellLog [5, -3, 5], .delete placeLog [4, -2], .fetch spellLog none 3]

theorem transact_twoLogs :
    (MemoryLog.ofRows twoTables).Coherent ∧
      (∀ m ∈ [placeLog, spellLog], ∀ r ∈ (MemoryLog.ofRows twoTables).pending m.logTable,
        Int64.minValue < r.sequence) ∧
      (∀ m ∈ [placeLog, spellLog], ∀ m' ∈ [placeLog, spellLog],
        sameName m.logTable m'.logTable → m.logTable = m'.logTable) ∧
      SqlLog.Mirrors [placeLog, spellLog] twoLogs (MemoryLog.ofRows twoTables).pending ∧
      (∀ c ∈ twoLogsCalls, c.model ∈ [placeLog, spellLog] ∧ c.bound ≠ some Int64.maxValue) ∧
      (∀ c ∈ twoLogsCalls, c.model.Queryable) ∧
      (∀ m ids, LogCall.delete m ids ∈ twoLogsCalls → twoLogs.triggersOn m.logTable .delete = []) ∧
      ∃ log' db',
        MemoryLog.store.transact twoLogsCalls .commit ⟨MemoryLog.ofRows twoTables, []⟩ =
          .ok (LogCall.replies (MemoryLog.ofRows twoTables).pending twoLogsCalls) ⟨log', []⟩ ∧
        SqlLog.store.transact twoLogsCalls .commit ⟨twoLogs, none⟩ =
          .ok (LogCall.replies (MemoryLog.ofRows twoTables).pending twoLogsCalls) ⟨db', none⟩ ∧
        SqlLog.Mirrors [placeLog, spellLog] db' log'.pending ∧
        (Ending.commit = .commit →
          log'.pending = twoLogsCalls.foldl LogCall.left (MemoryLog.ofRows twoTables).pending) ∧
        (Ending.commit ≠ .commit → log' = MemoryLog.ofRows twoTables ∧ db' = twoLogs) := by
  have hlog : (MemoryLog.ofRows twoTables).Coherent := MemoryLog.coherent_ofRows _
  have hmin : ∀ m ∈ [placeLog, spellLog], ∀ r ∈ (MemoryLog.ofRows twoTables).pending m.logTable,
      Int64.minValue < r.sequence := by
    intro m _ r hr
    obtain ⟨x, hx, rfl⟩ := MemoryLog.mem_pending_ofRows hr
    exact (by decide : ∀ x ∈ twoTables, Int64.minValue < x.2.sequence) x hx
  have hnames : ∀ m ∈ [placeLog, spellLog], ∀ m' ∈ [placeLog, spellLog],
      sameName m.logTable m'.logTable → m.logTable = m'.logTable := by
    decide +kernel
  have hcalls : ∀ c ∈ twoLogsCalls,
      c.model ∈ [placeLog, spellLog] ∧ c.bound ≠ some Int64.maxValue := by
    decide
  have hwords : ∀ c ∈ twoLogsCalls, c.model.Queryable := by decide +kernel
  have hquiet (m : LogModel) (ids : List Int64) (_ : LogCall.delete m ids ∈ twoLogsCalls) :
      twoLogs.triggersOn m.logTable .delete = [] := by
    rw [Database.triggersOn, twoLogs_triggers]
    rfl
  exact ⟨hlog, hmin, hnames, mirrors_twoLogs, hcalls, hwords, hquiet,
    transact_interchangeable hlog hmin hnames mirrors_twoLogs twoLogsCalls hcalls hwords hquiet
      .commit⟩

def castLog : LogModel where
  logTable := "cast_log"
  watchedTable := "place"
  ids := [⟨"Place", ["cast"], ["id"], .integer⟩]

def auditLog : LogModel where
  logTable := "audit_log"
  watchedTable := "place_log"
  ids := [⟨"Place", ["place_id"], ["place_id"], .integer⟩]

def castRows : Database where
  tables := .ofList [("cast_log", filled castLog [castLog.row 4 .insert [.integer 7]])]

def auditedRows : Database where
  tables := .ofList [("place_log", filled placeLog [placeLog.row 4 .insert [.integer 7]]),
    ("audit_log", filled auditLog [auditLog.row 1 .insert [.integer 7]]), (counterName, counterAt 1)]
  triggers := [.delete, .update, .insert].map auditLog.trigger

/-- The rows of both tables: the second row is about the first one. -/
def auditedTables : List (String × LogRow) :=
  [("place_log", placeLog.row 4 .insert [.integer 7]),
    ("audit_log", auditLog.row 1 .insert [.integer 7])]

/-- Where a column's name is read as something else, only the store in memory answers. Where one log table
watches another, a deletion leaves one more row in a database. -/
theorem transact_differs :
    (SqlLog.Mirrors [castLog] castRows
        (MemoryLog.ofRows [("cast_log", castLog.row 4 .insert [.integer 7])]).pending ∧
      ((MemoryLog.store.transact [.fetch castLog none 5] .commit).outcome
        ⟨MemoryLog.ofRows [("cast_log", castLog.row 4 .insert [.integer 7])], []⟩).1 =
          .ok [.rows [castLog.row 4 .insert [.integer 7]]] ∧
      ((SqlLog.store.transact [.fetch castLog none 5] .commit).outcome ⟨castRows, none⟩).1 =
        .error (.sql (.located (.syntaxAt "FROM") (SqlLog.windowQuery castLog).text 35))) ∧
    SqlLog.Mirrors [placeLog, auditLog] auditedRows (MemoryLog.ofRows auditedTables).pending ∧
      let memory := (MemoryLog.store.transact [.delete placeLog [4]] .commit).outcome
        ⟨MemoryLog.ofRows auditedTables, []⟩
      let sql := (SqlLog.store.transact [.delete placeLog [4]] .commit).outcome ⟨auditedRows, none⟩
      memory.1 = .ok [.count 1] ∧ sql.1 = .ok [.count 1] ∧
        memory.2.log.pending "audit_log" = [auditLog.row 1 .insert [.integer 7]] ∧
        SqlLog.pendingRows sql.2.db auditLog = .ok 2 ∧
        ¬ SqlLog.Mirrors [placeLog, auditLog] sql.2.db memory.2.log.pending := by
  decide +kernel

example : LogCall.replies (MemoryLog.ofRows twoTables).pending twoLogsCalls =
    [.rows [placeLog.row (-2) .delete [.integer 8, .integer 42],
      placeLog.row 4 .insert [.integer 7, .integer 42]], .count 1,
      .rows [placeLog.row (-2) .delete [.integer 8, .integer 42]], .count 2, .count 1, .rows []] := by
  decide

end ChangeFeed.Sample
