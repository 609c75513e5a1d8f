import ChangeFeed.Proofs.Log.Interchange
import Mathlib.Data.List.Induction
import Mathlib.Data.List.Infix

namespace ChangeFeed.MemoryLog

open Act LogRow

inductive Use where
  | record (m : LogModel) (eventType : EventType) (values : List IdValue)
  | insertRow (name : String) (row : LogRow)
  | transact (calls : List LogCall) (ending : Ending)

/-- The log afterwards. A change that is refused leaves it as it is. -/
def use (log : MemoryLog) : Use → MemoryLog
  | .record m eventType values =>
    match log.record m eventType values with
    | .ok (_, log) => log
    | .error _ => log
  | .insertRow name row => log.insertRow name row
  | .transact calls ending => ((store.transact calls ending).outcome ⟨log, []⟩).2.log

def used (uses : List Use) : MemoryLog := uses.foldl use {}

/-- The row stood in a table at some moment. -/
def Stood (uses : List Use) (name : String) (r : LogRow) : Prop :=
  ∃ before, before <+: uses ∧ r ∈ (used before).pending name

variable {log : MemoryLog} {uses : List Use} {name : String} {r : LogRow}

theorem used_concat (uses : List Use) (u : Use) : used (uses ++ [u]) = (used uses).use u := by
  rw [used, List.foldl_concat, used]

theorem stood_concat {u : Use} : Stood (uses ++ [u]) name r ↔
    r ∈ ((used uses).use u).pending name ∨ Stood uses name r := by
  simp only [Stood, List.prefix_concat_iff, or_and_right, exists_or, exists_eq_left, used_concat]

theorem transact_without (log : MemoryLog) (calls : List LogCall) (ending : Ending) :
    ∃ gone, ((store.transact calls ending).outcome ⟨log, []⟩).2.log = log.without gone := by
  have hanswer (c : LogCall) : Keeps (fun tx : Tx => tx.log = log) (store.answer c) := by
    cases c with
    | fetch m after limit => exact fun tx h => h
    | delete m ids => exact fun tx h => (Tx.log_delete tx m.logTable ids).trans h
  have hfinish (tx : Tx) (h : tx.log = log) : Ends (store.finish ending) tx
      (fun _ t => ∃ gone, t.log = log.without gone) fun _ t => ∃ gone, t.log = log.without gone := by
    subst h
    cases ending with
    | commit => exact ends_modify ⟨tx.deleted, rfl⟩
    | rollback | drop => exact ends_modify ⟨[], (without_nil _).symm⟩
  have hrun : Ends (store.transact calls ending) ⟨log, []⟩
      (fun _ t => ∃ gone, t.log = log.without gone) fun _ t => ∃ gone, t.log = log.without gone := by
    refine ends_modify_bind ?_
    refine (Keeps.mapM (fun c _ => hanswer c) ⟨log, []⟩ rfl).seq ?_ fun _ t ht => ?_
    · exact fun _ t ht => ⟨[], ht.trans (without_nil _).symm⟩
    · exact (hfinish t ht).bind fun _ _ h => ends_pure h
  rw [outcome]
  cases hr : store.transact calls ending ⟨log, []⟩ with
  | ok answers t => exact hrun.of_ok hr
  | error e t => exact hrun.of_error hr

theorem record_of_length (log : MemoryLog) {m : LogModel} {values : List IdValue} (t : EventType)
    (h : m.logColumns.length = values.length) : log.record m t values =
      .ok (log.sequence + 1, log.use (.record m t values)) := by
  simp only [use, record, if_neg (not_not_intro h)]

theorem record_of_length_ne (log : MemoryLog) {m : LogModel} {values : List IdValue} (t : EventType)
    (h : m.logColumns.length ≠ values.length) : log.record m t values =
      .error (.idCount m.logTable m.logColumns.length values.length) := by
  rw [record, if_pos h]

theorem le_max (a b : Int64) : a ≤ max a b ∧ b ≤ max a b := by
  show (a ≤ if a ≤ b then b else a) ∧ b ≤ if a ≤ b then b else a
  split
  next h => exact ⟨h, Int64.le_refl b⟩
  next h => exact ⟨Int64.le_refl a, Int64.le_of_lt (Int64.not_le.1 h)⟩

theorem max_eq (a b : Int64) : max a b = a ∨ max a b = b := by
  show (if a ≤ b then b else a) = a ∨ (if a ≤ b then b else a) = b
  split
  next => exact .inr rfl
  next => exact .inl rfl

theorem Stamped.insertRow (h : log.Stamped) (name : String) (row : LogRow) :
    (log.insertRow name row).Stamped where
  coherent := h.coherent.insertRow name row
  le_sequence name' r hr := by
    have hmax := le_max log.sequence row.sequence
    rcases mem_pending_insertRow h.coherent hr with rfl | hr
    · exact hmax.2
    · exact Int64.le_trans (h.le_sequence name' r hr) hmax.1

theorem mem_pending_put_self (h : log.Coherent) (name : String) (row : LogRow) :
    row ∈ (log.put name row).pending name := by
  rw [mem_pending (h.put name row), table_put, if_pos rfl, SortedMap.get?_insert_self]

theorem mem_tables_of_pending (h : r ∈ log.pending name) :
    ∃ rows ∈ log.tables.values, r ∈ rows.values := by
  rw [pending, table] at h
  cases hrows : log.tables.get? name with
  | none =>
      rw [hrows] at h
      cases h
  | some rows =>
      rw [hrows] at h
      exact ⟨rows, SortedMap.mem_values.2 ⟨name, hrows⟩, h⟩

theorem Stamped.use (h : log.Stamped) (hmax : log.sequence ≠ Int64.maxValue) (u : Use) :
    (log.use u).Stamped ∧ log.sequence ≤ (log.use u).sequence := by
  cases u with
  | record m t values =>
      by_cases hlen : m.logColumns.length = values.length
      · have hr := record_of_length log t hlen
        refine ⟨h.record hmax hr, ?_⟩
        obtain ⟨-, hn, hlog⟩ := record_ok hr
        rw [hlog, Int64.le_iff_toInt_le]
        show log.sequence.toInt ≤ (log.sequence + 1).toInt
        rw [toInt_add_one hmax]
        omega
      · have hsame : log.use (.record m t values) = log := by
          rw [MemoryLog.use, record_of_length_ne log t hlen]
        exact ⟨hsame.symm ▸ h, hsame.symm ▸ Int64.le_refl _⟩
  | insertRow name row => exact ⟨h.insertRow name row, (le_max _ _).1⟩
  | transact calls ending =>
      obtain ⟨gone, hgone⟩ := transact_without log calls ending
      rw [MemoryLog.use, hgone]
      exact ⟨h.without gone, Int64.le_refl _⟩

theorem sequence_use (h : log.Coherent) (u : Use) : (log.use u).sequence = log.sequence ∨
    ∃ name, ∃ r ∈ (log.use u).pending name, r.sequence = (log.use u).sequence := by
  cases u with
  | record m t values =>
      by_cases hlen : m.logColumns.length = values.length
      · obtain ⟨-, -, hlog⟩ := record_ok (record_of_length log t hlen)
        rw [hlog]
        exact .inr ⟨m.logTable, _, mem_pending_put_self h _ _, rfl⟩
      · rw [use, record_of_length_ne log t hlen]
        exact .inl rfl
  | insertRow name row =>
      refine (max_eq log.sequence row.sequence).imp id fun hmax => ?_
      exact ⟨name, row, mem_pending_put_self h name row, hmax.symm⟩
  | transact calls ending =>
      obtain ⟨gone, hgone⟩ := transact_without log calls ending
      rw [use, hgone]
      exact .inl rfl

structure Numbered (uses : List Use) : Prop where
  stamped : (used uses).Stamped
  le_sequence : ∀ name r, Stood uses name r → r.sequence ≤ (used uses).sequence
  below : (used uses).sequence ≠ Int64.maxValue

theorem numbered (hmax : ∀ name r, Stood uses name r → r.sequence ≠ Int64.maxValue) :
    Numbered uses := by
  induction uses using List.reverseRecOn with
  | nil =>
      refine ⟨stamped_empty, ?_, (by decide : (0 : Int64) ≠ Int64.maxValue)⟩
      rintro name r ⟨before, hbefore, hr⟩
      rw [List.prefix_nil.1 hbefore] at hr
      cases hr
  | append_singleton uses u ih =>
      have hnow {name : String} {r : LogRow} (hr : r ∈ ((used uses).use u).pending name) :
          Stood (uses ++ [u]) name r := stood_concat.2 (.inl hr)
      obtain ⟨hstamped, hle, hbelow⟩ := ih fun name r hr => hmax name r (stood_concat.2 (.inr hr))
      obtain ⟨hstamped', hmono⟩ := hstamped.use hbelow u
      constructor
      case stamped => rwa [used_concat]
      case le_sequence =>
        intro name r hr
        rw [used_concat]
        rcases stood_concat.1 hr with hr | hr
        · exact hstamped'.le_sequence name r hr
        · exact Int64.le_trans (hle name r hr) hmono
      case below =>
        rw [used_concat]
        rcases sequence_use hstamped.coherent u with hs | ⟨name, r, hr, hs⟩
        · rwa [hs]
        · exact hs ▸ hmax name r (hnow hr)

/-- A log was used in any way, and the greatest id of all never stood in a table. Then a change with as many
values as its table has id columns is recorded under an id above all that ever stood in any table, and its
row is the only thing that the tables change by. A change with another number of values is refused, and the
log stays as it is. -/
theorem record_fresh (hmax : ∀ name r, Stood uses name r → r.sequence ≠ Int64.maxValue)
    (m : LogModel) (t : EventType) (values : List IdValue) :
    let log := used uses
    let log' := log.use (.record m t values)
    (m.logColumns.length = values.length →
      ∃ n, log.record m t values = .ok (n, log') ∧
        (∀ name r, Stood uses name r → r.sequence < n) ∧
        ∀ name, log'.pending name =
          if name = m.logTable then log.pending name ++ [m.row n t values] else log.pending name) ∧
      (m.logColumns.length ≠ values.length →
        ∃ e, log.record m t values = .error e ∧ e.kind = .invalidModel ∧ log' = log) := by
  intro log log'
  obtain ⟨hstamped, hle, hbelow⟩ := numbered hmax
  constructor
  · intro hlen
    have hr := record_of_length log t hlen
    refine ⟨log.sequence + 1, hr, fun name r hs => ?_, pending_record hstamped hbelow hr⟩
    have hle' := Int64.le_iff_toInt_le.1 (hle name r hs)
    rw [Int64.lt_iff_toInt_lt, toInt_add_one hbelow]
    omega
  · intro hlen
    have hr := record_of_length_ne log t hlen
    refine ⟨_, hr, rfl, ?_⟩
    show log.use (.record m t values) = log
    rw [use, hr]

end ChangeFeed.MemoryLog

namespace ChangeFeed.Sample

open MemoryLog

/-- Rows come with ids of their own, one of them negative. The row with the greatest id is deleted, and one
change is refused. -/
def manyUses : List Use :=
  [.record placeLog .insert [.integer 7, .integer 42],
    .insertRow "spell_log" (spellLog.row (-5) .update [.integer 1]),
    .insertRow "place_log" (placeLog.row 40 .delete [.integer 8, .integer 42]),
    .record placeLog .update [.integer 7],
    .transact [.delete placeLog [40, 1]] .commit,
    .transact [.delete spellLog [-5]] .rollback]

theorem record_manyUses :
    let log := used manyUses
    let log' := log.use (.record spellLog .insert [.integer 3])
    (∀ name r, Stood manyUses name r → r.sequence ≠ Int64.maxValue) ∧
      (∃ n, log.record spellLog .insert [.integer 3] = .ok (n, log') ∧
        (∀ name r, Stood manyUses name r → r.sequence < n) ∧
        ∀ name, log'.pending name = if name = "spell_log"
          then log.pending name ++ [spellLog.row n .insert [.integer 3]] else log.pending name) ∧
      ∃ e, log.record spellLog .insert [] = .error e ∧ e.kind = .invalidModel ∧
        log.use (.record spellLog .insert []) = log := by
  intro log log'
  have hmoments : ∀ before ∈ manyUses.inits, ∀ rows ∈ (used before).tables.values,
      ∀ r ∈ rows.values, r.sequence ≠ Int64.maxValue := by
    decide +kernel
  have hmax : ∀ name r, Stood manyUses name r → r.sequence ≠ Int64.maxValue := by
    rintro name r ⟨before, hbefore, hr⟩
    obtain ⟨rows, hrows, hr⟩ := mem_tables_of_pending hr
    exact hmoments before ((List.mem_inits before manyUses).2 hbefore) rows hrows r hr
  exact ⟨hmax, (record_fresh hmax spellLog .insert [.integer 3]).1 rfl,
    (record_fresh hmax spellLog .insert []).2 (by decide)⟩

example : ((used manyUses).record spellLog .insert [.integer 3]).toOption.map (·.1) = some 41 ∧
    (used manyUses).pending "place_log" = [] := by
  decide +kernel

end ChangeFeed.Sample
