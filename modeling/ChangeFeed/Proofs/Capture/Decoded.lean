import ChangeFeed.Proofs.Capture.Columns
import ChangeFeed.Proofs.Capture.Row

namespace ChangeFeed

namespace LogModel

variable {m : LogModel}

theorem addColumns_ok {table : String} {columns seen seen' : List String}
    (h : addColumns table seen columns = .ok seen') :
    seen' = columns.reverse ++ seen ∧ (seen.Nodup → seen'.Nodup) := by
  induction columns generalizing seen with
  | nil =>
      cases h
      exact ⟨rfl, id⟩
  | cons c columns ih =>
      rw [addColumns] at h
      by_cases hc : c ∈ seen
      · rw [if_pos hc] at h
        cases h
      · rw [if_neg hc] at h
        obtain ⟨rfl, hnodup⟩ := ih h
        exact ⟨by simp, fun hs => hnodup (List.nodup_cons.2 ⟨hc, hs⟩)⟩

theorem checkMappings_nodup {table : String} {seen : List String} {ids : List IdMapping}
    (h : checkMappings table seen ids = .ok ()) (hseen : seen.Nodup) :
    (seen ++ ids.flatMap (·.logColumns)).Nodup := by
  induction ids generalizing seen with
  | nil => simpa using hseen
  | cons mapping ids ih =>
      obtain ⟨-, seen', hadd, h⟩ := checkMappings_cons h
      obtain ⟨rfl, hnodup⟩ := addColumns_ok hadd
      refine (List.Perm.nodup_iff ?_).1 (ih h (hnodup hseen))
      rw [List.flatMap_cons, ← List.append_assoc]
      refine List.Perm.append_right _ (List.perm_append_comm.trans ?_)
      exact List.Perm.append_left _ (List.reverse_perm _)

theorem nodup_columns (h : m.validate = .ok ()) :
    (m.sequenceColumn :: m.logColumns ++ [m.eventColumn]).Nodup := by
  obtain ⟨-, hs, hc⟩ := checkMappings_of_validate h
  rw [logColumns_eq h]
  refine (List.Perm.nodup_iff ?_).1 (checkMappings_nodup hc (by simpa using Ne.symm hs))
  exact (List.perm_append_singleton _ _).symm

/-- The row for a change to a watched row: the values of watched columns are in the id columns beside
them. -/
def captured (m : LogModel) (n : Int64) (e : EventType) (watched : String → Option IdValue) : LogRow where
  sequence := n
  code := e.code
  columns := .ofList (m.columnPairs.filterMap fun p => (watched p.watched).map (p.log, ·))

end LogModel

namespace Capture

/-- What a text in a list of values stands for: a number, or a column of a row. A row is known by its
alias, and a column without a value holds NULL. -/
def read (rows : String → String → Option IdValue) (text : String) : Option IdValue :=
  let front := text.toList.takeWhile (· ≠ '.')
  match text.toList.dropWhile (· ≠ '.') with
  | [] => if front.all Char.isDigit then some (.integer (.ofNat (Nat.ofDigitChars 10 front 0))) else none
  | _ :: column => rows (String.ofList front) (String.ofList column)

/-- The log row that an insertion leaves under a sequence id: each column is given the value at its
position. -/
def row? (c : Capture) (sequence : Int64) (rows : String → String → Option IdValue) : Option LogRow :=
  let cells := c.columns.zip (c.values.map (read rows))
  match cells.lookup c.eventColumn with
  | some (some (.integer code)) =>
    let ids := cells.filter (·.1 ≠ c.eventColumn)
    some ⟨sequence, code, .ofList (ids.filterMap fun cell => cell.2.map (cell.1, ·))⟩
  | _ => none

theorem read_copied (rows : String → String → Option IdValue) (e : EventType) (column : String) :
    read rows s!"{rowAlias e}.{column}" = rows (rowAlias e) column := by
  have htext : s!"{rowAlias e}.{column}".toList = (rowAlias e).toList ++ '.' :: column.toList := by
    rw [show s!"{rowAlias e}.{column}" = rowAlias e ++ "." ++ column from rfl, String.toList_append,
      String.toList_append, List.append_assoc]
    rfl
  have halias : ∀ c ∈ (rowAlias e).toList, decide (c ≠ '.') = true := by
    refine List.all_eq_true.1 ?_
    cases e <;> rfl
  simp only [read, htext, List.dropWhile_append_of_pos halias, List.takeWhile_append_of_pos halias]
  simp

theorem read_code (rows : String → String → Option IdValue) (e : EventType) :
    read rows (toString e.code) = some (.integer e.code) := by
  cases e <;> rfl

variable (m : LogModel) (e : EventType) (rows : String → String → Option IdValue)

theorem cells_capture :
    (m.capture e).columns.zip ((m.capture e).values.map (read rows)) =
      m.columnPairs.map (fun p => (p.log, rows (rowAlias e) p.watched)) ++
        [(m.eventColumn, some (.integer e.code))] := by
  have hvalues : (m.capture e).values.map (read rows) =
      m.columnPairs.map (fun p => rows (rowAlias e) p.watched) ++ [some (.integer e.code)] := by
    rw [values, List.map_append, List.map_map, LogModel.capture, List.map_map, List.map_singleton,
      read_code]
    congr 1
    exact List.map_congr_left fun p _ => read_copied rows e p.watched
  have hcolumns : (m.capture e).columns = m.columnPairs.map (·.log) ++ [m.eventColumn] := by
    rw [columns, LogModel.capture, List.map_map]
    rfl
  rw [hvalues, hcolumns, List.zip_append (by simp), List.zip_map']
  rfl

variable {m}

theorem row?_capture (h : m.validate = .ok ()) (n : Int64) :
    (m.capture e).row? n rows = some (m.captured n e (rows (rowAlias e))) := by
  have hne : ∀ cell ∈ m.columnPairs.map (fun p => (p.log, rows (rowAlias e) p.watched)),
      cell.1 ≠ m.eventColumn := by
    intro cell hcell
    obtain ⟨p, hp, rfl⟩ := List.mem_map.1 hcell
    refine (List.nodup_append.1 (LogModel.nodup_columns h)).2.2 _ ?_ _ (List.mem_singleton_self _)
    exact List.mem_cons_of_mem _ (List.mem_map.2 ⟨p, hp, rfl⟩)
  have hlookup : (m.columnPairs.map fun p => (p.log, rows (rowAlias e) p.watched)).lookup
      m.eventColumn = none := by
    rw [List.lookup_eq_none_iff]
    exact fun cell hcell => bne_iff_ne.2 (hne cell hcell).symm
  have hevent : (m.capture e).eventColumn = m.eventColumn := rfl
  have hids : (m.columnPairs.map fun p => (p.log, rows (rowAlias e) p.watched)).filter
      (·.1 ≠ m.eventColumn) = m.columnPairs.map fun p => (p.log, rows (rowAlias e) p.watched) :=
    List.filter_eq_self.2 fun cell hcell => decide_eq_true (hne cell hcell)
  simp only [row?, cells_capture, hevent, List.lookup_append, hlookup, List.filter_append, hids]
  simp [List.lookup_cons_self, List.filterMap_map, LogModel.captured]

end Capture

namespace LogModel

variable {m : LogModel} (h : m.validate = .ok ()) {n : Int64} {e : EventType}
  {watched : String → Option IdValue}
include h

theorem column?_captured {p : ColumnPair} (hp : p ∈ m.columnPairs) :
    (m.captured n e watched).column? p.log = watched p.watched := by
  have hnodup : (m.columnPairs.map (·.log)).Nodup :=
    (List.nodup_append.1 (List.nodup_cons.1 (nodup_columns h)).2).1
  have hkeys : ((m.columnPairs.filterMap fun p => (watched p.watched).map (p.log, ·)).map (·.1)).Nodup := by
    refine hnodup.sublist ?_
    induction m.columnPairs with
    | nil => exact .slnil
    | cons q qs ih => cases hq : watched q.watched <;> simp [hq, ih]
  refine Option.ext fun v => ?_
  rw [LogRow.column?, captured, SortedMap.get?_ofList_eq_some hkeys, List.mem_filterMap]
  constructor
  · rintro ⟨q, hq, hv⟩
    obtain ⟨w, hw, heq⟩ := Option.map_eq_some_iff.1 hv
    obtain ⟨hlog, rfl⟩ := Prod.mk.inj heq
    rwa [eq_of_key hnodup hq hp hlog] at hw
  · exact fun hv => ⟨p, hp, by rw [hv]; rfl⟩

theorem id?_captured {mapping : IdMapping} (hm : mapping ∈ m.ids) :
    mapping.id? (m.captured n e watched) = EntityId.mk <$> mapping.watchedColumns.mapM watched := by
  refine congrArg _ (mapM_congr_zip ((validate_ok h).2 mapping hm) fun c hc => ?_)
  exact column?_captured h (p := ⟨mapping, c.1, c.2⟩)
    (List.mem_flatMap.2 ⟨mapping, hm, List.mem_map.2 ⟨c, hc, rfl⟩⟩)

theorem events_captured (hlead : ∀ c ∈ m.leading, watched c ≠ none) :
    m.events (m.captured n e watched) e = .ok (m.ids.filterMap fun k =>
      (k.watchedColumns.mapM watched).map fun vs => ⟨k.entityType, ⟨vs⟩, e⟩) := by
  have hid (k : IdMapping) (hk : k ∈ m.ids) : (k.id? (m.captured n e watched)).map
      (fun id => (⟨k.entityType, id, e⟩ : ChangeEvent)) =
        (k.watchedColumns.mapM watched).map fun vs => ⟨k.entityType, ⟨vs⟩, e⟩ := by
    rw [id?_captured h hk, Option.map_eq_map, Option.map_map]
    rfl
  refine events_eq_ok_iff.2 ⟨?_, (List.filterMap_congr hid).symm⟩
  intro first hfirst
  rw [id?_captured h (List.mem_of_mem_head? hfirst), Option.map_eq_map, Option.isSome_map,
    isSome_mapM_iff]
  obtain ⟨later, hids⟩ := List.head?_eq_some_iff.1 hfirst
  intro c hc
  rw [leading, hids] at hlead
  exact Option.isSome_iff_ne_none.2 (hlead c hc)

omit h in
/-- What a log in memory records for the same values is the captured row. -/
theorem columns_row {values : List IdValue}
    (hvalues : m.columnPairs.map (fun p => watched p.watched) = values.map some) :
    (m.row n e values).columns = (m.captured n e watched).columns := by
  have hlist (ps : List ColumnPair) {values : List IdValue} (hps : ps.map (fun p => watched p.watched) =
      values.map some) : (ps.map (·.log)).zip values =
        ps.filterMap fun p => (watched p.watched).map (p.log, ·) := by
    induction ps generalizing values with
    | nil => rfl
    | cons p ps ih =>
        cases values with
        | nil => cases hps
        | cons v values =>
            obtain ⟨hv, hps⟩ := List.cons.inj hps
            have hv : watched p.watched = some v := hv
            rw [List.map_cons, List.zip_cons_cons, ih hps, List.filterMap_cons, hv]
            rfl
  exact congrArg SortedMap.ofList (hlist m.columnPairs hvalues)

end LogModel

namespace MemoryLog

variable {m : LogModel} {e : EventType}

theorem record_spec {values : List IdValue} (hl : m.logColumns.length = values.length)
    (log : MemoryLog) : ∃ log', log.record m e values = .ok (log.sequence + 1, log') ∧
      (log'.table m.logTable).get? (log.sequence + 1) = some (m.row (log.sequence + 1) e values) := by
  have hr : log.record m e values = .ok (log.sequence + 1,
      { log with sequence := log.sequence + 1 }.put m.logTable (m.row (log.sequence + 1) e values)) := by
    rw [record, if_neg (not_not_intro hl)]
    rfl
  refine ⟨_, hr, ?_⟩
  rw [table_put, if_pos rfl]
  exact SortedMap.get?_insert_self _ _ _

end MemoryLog

namespace LogModel

variable {m : LogModel} (h : m.validateNames = .ok ())
include h

theorem valid_tableColumns : ∀ c ∈ m.tableColumns, Identifier.valid c.name = true := by
  intro c hc
  have hname : c.name ∈ m.tableColumns.map (·.name) := List.mem_map_of_mem hc
  rw [names_tableColumns (validate_of_validateNames h)] at hname
  refine (plain_capture h .insert).columns _ ?_
  rw [capture, Capture.columns, List.map_map]
  exact hname

theorem columnLists_table (d : Dialect) (e : EventType) :
    Statement.columnLists "CREATE TABLE IF NOT EXISTS "
      ((Ddl.createLogTable m.logTable m.tableColumns).render d).toList =
        [m.sequenceColumn :: (m.capture e).columns] := by
  have hcolumns : m.sequenceColumn :: (m.capture e).columns = m.tableColumns.map (·.name) := by
    rw [names_tableColumns (validate_of_validateNames h), capture, Capture.columns, List.map_map]
    rfl
  rw [hcolumns]
  exact Ddl.columnLists_createLogTable (valid_logTable h) (by simp [tableColumns])
    (valid_tableColumns h)

/-- Capture and decoding agree. A row of the watched table is known to a trigger by its alias. -/
theorem capture_decodes (e : EventType) (n : Int64) (rows : String → String → Option IdValue)
    (hlead : ∀ c ∈ m.leading, rows (rowAlias e) c ≠ none) :
    (∃ row, (m.capture e).row? n rows = some row ∧ row.sequence = n ∧ row.eventType? = some e ∧
      m.events row e = .ok (m.ids.filterMap fun k =>
        (k.watchedColumns.mapM (rows (rowAlias e))).map fun vs => ⟨k.entityType, ⟨vs⟩, e⟩) ∧
      (∀ k ∈ m.ids.head?, (k.watchedColumns.mapM (rows (rowAlias e))).isSome) ∧
      ∀ values : List IdValue,
        m.columnPairs.map (fun p => rows (rowAlias e) p.watched) = values.map some →
        ∀ log : MemoryLog, ∃ log' stored, log.record m e values = .ok (log.sequence + 1, log') ∧
          (log'.table m.logTable).get? (log.sequence + 1) = some stored ∧
          stored.columns = row.columns ∧ stored.code = row.code) ∧
    ∀ d, ∃ made statements columns, Capture.createLogTable m = .ok made ∧
      Capture.createTrigger d m e = .ok statements ∧
      made.flatMap (fun s => Statement.columnLists "CREATE TABLE IF NOT EXISTS " (s.render d).toList) =
        [columns] ∧
      statements.flatMap (fun s => Statement.columnLists Statement.insertLead (s.render d).toList) =
        [columns] ∧
      columns = m.sequenceColumn :: (m.capture e).columns ∧ columns.Nodup := by
  have hv := validate_of_validateNames h
  refine ⟨⟨_, Capture.row?_capture e rows hv n, rfl, EventType.ofCode?_code e,
    events_captured hv hlead, ?_, ?_⟩, fun d => ?_⟩
  · intro k hk
    have hthere : ∀ c ∈ k.watchedColumns, rows (rowAlias e) c ≠ none := by
      rw [leading, Option.mem_def.1 hk] at hlead
      exact hlead
    obtain ⟨vs, hvs⟩ := mapM_isSome hthere
    rw [hvs]
    rfl
  · intro values hvalues log
    have hl : m.logColumns.length = values.length := by
      rw [logColumns, List.length_map]
      simpa using congrArg List.length hvalues
    obtain ⟨log', hr, hget⟩ := MemoryLog.record_spec (e := e) hl log
    exact ⟨log', _, hr, hget, columns_row hvalues, rfl⟩
  · have hmade : Capture.createLogTable m = .ok [.createLogTable m.logTable m.tableColumns] := by
      rw [Capture.createLogTable, h]
      rfl
    have htrigger : Capture.createTrigger d m e = .ok (m.creating d e) := by
      rw [Capture.createTrigger, h]
      cases d <;> rfl
    have hnodup := nodup_columns hv
    refine ⟨_, _, _, hmade, htrigger, ?_, columnLists_creating h d e, rfl, ?_⟩
    · rw [List.flatMap_singleton]
      exact columnLists_table h d e
    · rw [capture, Capture.columns, List.map_map]
      exact hnodup

end LogModel

end ChangeFeed

namespace ChangeFeed.Sample

open LogModel

def addedPlace (row column : String) : Option IdValue :=
  if row = "NEW" ∧ column = "id" then some (.integer 7) else none

theorem capture_decodes_addedPlace : placeLog.validateNames = .ok () ∧
    (∀ c ∈ placeLog.leading, addedPlace (rowAlias .insert) c ≠ none) ∧
    (∃ row, (placeLog.capture .insert).row? 3 addedPlace = some row ∧ row.eventType? = some .insert ∧
      placeLog.events row .insert = .ok [⟨"Place", ⟨[.integer 7]⟩, .insert⟩]) ∧
    ∀ d, ∃ made statements columns, Capture.createLogTable placeLog = .ok made ∧
      Capture.createTrigger d placeLog .insert = .ok statements ∧
      made.flatMap (fun s => Statement.columnLists "CREATE TABLE IF NOT EXISTS " (s.render d).toList) =
        [columns] ∧
      statements.flatMap (fun s => Statement.columnLists Statement.insertLead (s.render d).toList) =
        [columns] ∧
      columns = ["update_id", "place_id", "sorcerer_id", "event_case"] ∧ columns.Nodup := by
  have hv : placeLog.validateNames = .ok () := by decide
  have hlead : ∀ c ∈ placeLog.leading, addedPlace (rowAlias .insert) c ≠ none := by decide
  obtain ⟨⟨row, hrow, -, htype, hevents, -⟩, htexts⟩ := capture_decodes hv .insert 3 addedPlace hlead
  exact ⟨hv, hlead, ⟨row, hrow, htype, hevents⟩, htexts⟩

end ChangeFeed.Sample
