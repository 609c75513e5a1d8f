import ChangeFeed.Proofs.Decoding
import ChangeFeed.Proofs.Log.SqlTable
import ChangeFeed.Proofs.Sql.Counter

namespace ChangeFeed

open Sql

namespace Sql

theorem Value.ofDecimal_ne_null {d : Decimal} {v : Value} (h : ofDecimal d = some v) : v ≠ .null := by
  obtain ⟨x, -, rfl⟩ := Option.map_eq_some_iff.1 h
  exact nofun

theorem Value.numberOfText?_ne_null {s : String} {v : Value} (h : numberOfText? s = some v) :
    v ≠ .null := by
  rw [numberOfText?] at h
  split at h
  next d rest _ =>
    split at h
    next =>
      rw [ofNumber] at h
      split at h
      next => exact ofDecimal_ne_null h
      next =>
        split at h
        next =>
          split at h
          next =>
            cases h
            intro hnull
            cases hnull
          next => exact ofDecimal_ne_null h
        next => exact ofDecimal_ne_null h
    next => cases h
  next => cases h

theorem Value.wholeOfReal_ne_null (d : Decimal) : wholeOfReal d ≠ .null := by
  rw [wholeOfReal]
  split
  next =>
    split
    next => exact nofun
    next => exact nofun
  next => exact nofun

theorem ne_null_of_getD {o : Option Value} {v : Value} (ho : ∀ w, o = some w → w ≠ .null)
    (hv : v ≠ .null) : o.getD v ≠ .null := by
  cases o with
  | none => exact hv
  | some w => exact ho w rfl

theorem Affinity.apply_ne_null {v : Value} (h : v ≠ .null) (a : Affinity) : a.apply v ≠ .null := by
  have hdecimal (d : Decimal) (n : Int64) : (Value.ofDecimal d).getD (.integer n) ≠ .null :=
    ne_null_of_getD (fun _ => Value.ofDecimal_ne_null) nofun
  cases a with
  | numeric =>
      cases v with
      | text s => exact ne_null_of_getD (fun _ => Value.numberOfText?_ne_null) nofun
      | real d => exact Value.wholeOfReal_ne_null d
      | _ => exact h
  | real =>
      cases v with
      | integer n => exact hdecimal _ n
      | text s =>
          rw [apply]
          split
          next => exact hdecimal _ _
          next hv => exact Value.numberOfText?_ne_null hv
          next => exact nofun
      | _ => exact h
  | text =>
      cases v with
      | null => exact h
      | _ => exact nofun
  | none => exact h

end Sql

namespace LogModel

variable {m : LogModel}

def leading (m : LogModel) : List String := (m.ids.head?.map (·.watchedColumns)).getD []

theorem logColumns_eq (h : m.validate = .ok ()) : m.logColumns = m.ids.flatMap (·.logColumns) := by
  rw [logColumns, columnPairs, List.map_flatMap, List.flatMap_def, List.flatMap_def]
  refine congrArg _ (List.map_congr_left fun mapping hm => ?_)
  rw [List.map_map]
  exact List.map_fst_zip (Nat.le_of_eq ((validate_ok h).2 mapping hm))

theorem names_mappingColumns (mapping : IdMapping) (required : Bool) :
    (mappingColumns mapping required).map (·.name) = mapping.logColumns := by
  rw [mappingColumns, List.map_map]
  exact List.map_id _

theorem names_tableColumns (h : m.validate = .ok ()) :
    m.tableColumns.map (·.name) = m.sequenceColumn :: m.logColumns ++ [m.eventColumn] := by
  rw [logColumns_eq h]
  cases hids : m.ids with
  | nil => simp [tableColumns, idColumns, hids]
  | cons first later =>
      simp [tableColumns, idColumns, hids, names_mappingColumns, List.map_flatMap]

theorem of_mem_idColumns {c : LogColumn} (h : c ∈ m.idColumns) :
    ∃ mapping ∈ m.ids, ∃ required, c.name ∈ mapping.logColumns ∧
      c.role = .id mapping.columnType required ∧ (required = true → m.ids.head? = some mapping) := by
  rw [idColumns] at h
  cases hids : m.ids with
  | nil =>
      rw [hids] at h
      cases h
  | cons first later =>
      rw [hids] at h
      rcases List.mem_append.1 h with h | h
      · obtain ⟨name, hname, rfl⟩ := List.mem_map.1 h
        exact ⟨first, List.mem_cons_self .., true, hname, rfl, fun _ => rfl⟩
      · obtain ⟨mapping, hmapping, h⟩ := List.mem_flatMap.1 h
        obtain ⟨name, hname, rfl⟩ := List.mem_map.1 h
        exact ⟨mapping, List.mem_cons_of_mem _ hmapping, false, hname, rfl,
          fun h => absurd h Bool.false_ne_true⟩

def written (m : LogModel) (eventType : EventType) (sequence : Value) (read : String → Value) :
    List (String × Value) :=
  (m.sequenceColumn, sequence) :: m.columnPairs.map (fun p => (p.log, read p.watched)) ++
    [(m.eventColumn, .integer eventType.code)]

theorem logInsert_capture (m : LogModel) (eventType : EventType) (sequence : Value)
    (read : String → Value) : Database.logInsert (m.capture eventType) sequence read =
      .insert false m.logTable (m.written eventType sequence read) := by
  rw [Database.logInsert, capture, List.map_map]
  rfl

theorem names_written (h : m.validate = .ok ()) (eventType : EventType) (sequence : Value)
    (read : String → Value) :
    (m.written eventType sequence read).map (·.1) = m.tableColumns.map (·.name) := by
  rw [names_tableColumns h, logColumns]
  simp [written, Function.comp_def]

theorem exists_pair (h : m.validate = .ok ()) {mapping : IdMapping} (hm : mapping ∈ m.ids)
    {name : String} (hname : name ∈ mapping.logColumns) :
    ∃ watched ∈ mapping.watchedColumns, ⟨mapping, name, watched⟩ ∈ m.columnPairs := by
  have hzip : ((mapping.logColumns.zip mapping.watchedColumns).map (·.1)) = mapping.logColumns :=
    List.map_fst_zip (Nat.le_of_eq ((validate_ok h).2 mapping hm))
  rw [← hzip] at hname
  obtain ⟨⟨name, watched⟩, hc, rfl⟩ := List.mem_map.1 hname
  refine ⟨watched, (List.of_mem_zip hc).2, ?_⟩
  exact List.mem_flatMap.2 ⟨mapping, hm, List.mem_map.2 ⟨(name, watched), hc, rfl⟩⟩

@[simp] theorem only_logColumn (c : LogColumn) : (logColumn c).only = none := by
  obtain ⟨name, role⟩ := c
  rcases role with _ | ⟨_ | _, _⟩ | _ <;> rfl

@[simp] theorem unique_logColumn (c : LogColumn) : (logColumn c).unique = false := by
  obtain ⟨name, role⟩ := c
  rcases role with _ | ⟨_ | _, _⟩ | _ <;> rfl

/-- The table is the log table of a model, as its statement creates it. -/
structure Made (m : LogModel) (t : Table) : Prop where
  name : t.name = m.logTable
  columns : t.columns = m.tableColumns.map logColumn
  distinct : Distinct t.columns

section

variable {t : Table} (hm : m.Made t) (hv : m.validate = .ok ()) {eventType : EventType} {n : Int64}
  {read : String → Value}
include hm hv

theorem Made.cellFor_eq {sequence v : Value} {c : LogColumn}
    (hc : (c.name, v) ∈ m.written eventType sequence read) :
    Database.cellFor (m.written eventType sequence read) (logColumn c) = v := by
  have hnd : ((m.written eventType sequence read).map fun cell => foldCase cell.1).Nodup := by
    have hd := hm.distinct
    have hnames := names_written hv eventType sequence read
    rw [Distinct, hm.columns, List.map_map] at hd
    rw [show (fun cell : String × Value => foldCase cell.1) = foldCase ∘ (·.1) from rfl,
      ← List.map_map, hnames, List.map_map]
    simpa [Function.comp_def] using hd
  have hfind := find?_of_mem hnd hc
  simp only [Database.cellFor, logColumn_name, sameName, hfind]

theorem Made.chooseId : t.chooseId
    (t.columns.map (Database.cellFor (m.written eventType (.integer n) read))) = .ok n := by
  have hmem : (m.sequenceColumn, Value.integer n) ∈ m.written eventType (.integer n) read :=
    List.mem_cons_self ..
  have hcell := hm.cellFor_eq hv (c := ⟨m.sequenceColumn, .sequence⟩) hmem
  have hcolumns : t.columns = logColumn ⟨m.sequenceColumn, .sequence⟩ ::
      (m.idColumns ++ [(⟨m.eventColumn, .event⟩ : LogColumn)]).map logColumn := by
    rw [hm.columns]
    rfl
  rw [Table.chooseId, hcolumns, List.map_cons, List.zip_cons_cons, hcell]
  rfl

theorem Made.checkRow (hread : ∀ c ∈ m.leading, read c ≠ .null) :
    t.checkRow (t.convert n
      (t.columns.map (Database.cellFor (m.written eventType (.integer n) read)))) = .ok () := by
  refine Table.checkRow_ok ?_ ?_
  · intro c hc hnull hid
    obtain ⟨hcolumn, hvalue⟩ := Table.of_mem_zip_convert hc
    rw [hvalue hid]
    apply Affinity.apply_ne_null
    rw [hm.columns] at hcolumn
    obtain ⟨k, hk, hkc⟩ := List.mem_map.1 hcolumn
    rw [← hkc] at hnull hid ⊢
    rcases List.mem_cons.1 hk with rfl | hk
    · cases hid
    rcases List.mem_append.1 hk with hk | hk
    · obtain ⟨mapping, hmapping, required, hname, hrole, hhead⟩ := of_mem_idColumns hk
      obtain ⟨w, hw, hpair⟩ := exists_pair hv hmapping hname
      have hreq : required = true := by
        rw [logColumn, hrole] at hnull
        cases htype : mapping.columnType <;> rw [htype] at hnull <;> exact hnull
      have hcell : (k.name, read w) ∈ m.written eventType (.integer n) read := by
        refine List.mem_append_left _ (List.mem_cons_of_mem _ (List.mem_map.2 ⟨_, hpair, rfl⟩))
      rw [hm.cellFor_eq hv hcell]
      apply hread
      rwa [leading, hhead hreq]
    · obtain rfl := List.mem_singleton.1 hk
      have hcell : (m.eventColumn, Value.integer eventType.code) ∈
          m.written eventType (.integer n) read := List.mem_append_right _ (List.mem_singleton.2 rfl)
      rw [hm.cellFor_eq hv hcell]
      exact nofun
  · intro c hc k hk
    obtain ⟨hcolumn, -⟩ := Table.of_mem_zip_convert hc
    rw [hm.columns] at hcolumn
    obtain ⟨l, -, hl⟩ := List.mem_map.1 hcolumn
    rw [← hl, only_logColumn] at hk
    cases hk

theorem Made.insert (eventType : EventType) (hread : ∀ c ∈ m.leading, read c ≠ .null)
    (hfree : t.rows.contains n = false) :
    ∃ row, t.insert (t.columns.map (Database.cellFor (m.written eventType (.integer n) read))) =
      .ok ({ t with rows := t.rows.insert n row }, n, row) := by
  refine ⟨_, Table.insert_ok (hm.chooseId hv) (hm.checkRow hv hread)
    (Table.checkUnique_ok (.inr hfree) ?_)⟩
  intro c hc
  rw [hm.columns] at hc
  obtain ⟨k, -, rfl⟩ := List.mem_map.1 hc
  exact unique_logColumn k

end

end LogModel

end ChangeFeed
