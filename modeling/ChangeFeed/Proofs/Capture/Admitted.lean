import ChangeFeed.Proofs.Capture.Decoded
import ChangeFeed.Proofs.Log.Decodable
import ChangeFeed.Proofs.Log.Windows

namespace ChangeFeed

open Act Sql

namespace Statement

/-- Whether what stands behind the name of a column says that every row has a value there. -/
def isRequired (cs : List Char) : Bool :=
  cs.tails.any fun rest => "NOT NULL".toList.isPrefixOf rest || "PRIMARY KEY".toList.isPrefixOf rest

def required? (lead : String) (line : List Char) : Option (List String) := do
  let list ← members? lead line
  return (list.filter fun cs => isRequired (pastName cs)).map name

def requiredLists (lead : String) (text : List Char) : List (List String) :=
  (text.splitOn '\n').filterMap (required? lead)

end Statement

namespace LogColumn

open Statement

theorem isRequired_declared (d : Dialect) (role : LogColumnRole) : ∀ tail ∈ [[], [')']],
    Statement.isRequired ((declared d role).toList ++ tail) = isRequired ⟨"", role⟩ := by
  rcases role with _ | ⟨_ | _, _ | _⟩ | _ <;> cases d <;> decide +kernel

theorem isRequired_renderColumn (d : Dialect) {c : LogColumn} (h : Identifier.valid c.name = true)
    {tail : List Char} (htail : tail ∈ [[], [')']]) :
    Statement.isRequired (pastName ((Ddl.renderColumn d c).toList ++ tail)) = c.isRequired := by
  have hhead : ((declared d c.role).toList ++ tail).head?.all (!Identifier.isPart ·) = true := by
    rw [List.head?_append]
    have hrole := (declared_plain d c.role).1
    cases hr : (declared d c.role).toList.head? with
    | none => exact head?_closing htail
    | some k => rwa [hr] at hrole
  rw [renderColumn_eq, String.toList_append, List.append_assoc,
    pastName_of_head (Identifier.isPart_of_valid h) hhead]
  exact isRequired_declared d c.role tail htail

end LogColumn

namespace Ddl

open Statement

theorem requiredLists_createLogTable {d : Dialect} {table : String} {columns : List LogColumn}
    (htable : Identifier.valid table = true) (hne : columns ≠ [])
    (h : ∀ c ∈ columns, Identifier.valid c.name = true) :
    requiredLists "CREATE TABLE IF NOT EXISTS " ((createLogTable table columns).render d).toList =
      [(columns.filter (·.isRequired)).map (·.name)] := by
  have htext := render_createLogTable (d := d) table columns
  have hnames : ∀ c ∈ columns, Names c.name (renderColumn d c) := fun c hc =>
    LogColumn.names_renderColumn d (h c hc)
  have hread := map_members?_line (fun cs => (name cs, Statement.isRequired (pastName cs)))
    (fun c => (c.name, c.isRequired)) "CREATE TABLE IF NOT EXISTS " htable hne hnames
    fun c hc tail htail => Prod.ext ((hnames c hc).name_eq (head?_closing htail))
      (LogColumn.isRequired_renderColumn d (h c hc) htail)
  simp only [String.append_assoc] at htext
  obtain ⟨list, hlist, hlist'⟩ := Option.map_eq_some_iff.1 hread
  have hpairs := congrArg (fun ps => (ps.filter (·.2)).map (·.1)) hlist'
  simp only [List.filter_map, List.map_map] at hpairs
  rw [htext, requiredLists, List.splitOn_eq_singleton (not_mem_line (by decide) htable hnames),
    List.filterMap_cons, required?, hlist]
  exact congrArg ([·]) hpairs

end Ddl

namespace IdMapping

variable {mapping : IdMapping} {row : LogRow}

theorem id_eq_error {x : Failure} (h : mapping.id row = .error x) : ∃ c ∈ mapping.logColumns,
    row.column? c = none ∧ x = .missingId row.sequence c mapping.entityType := by
  rw [id, map_eq_pure_bind, bind_eq_error] at h
  rcases h with h | ⟨_, -, h⟩
  · obtain ⟨c, hc, hx⟩ := exists_mapM_error h
    refine ⟨c, hc, ?_⟩
    cases hcolumn : row.column? c with
    | none =>
        rw [hcolumn] at hx
        exact ⟨rfl, (Except.error.inj hx).symm⟩
    | some v =>
        rw [hcolumn] at hx
        cases hx
  · cases h

end IdMapping

namespace LogModel

variable {m : LogModel} {first : IdMapping} {later : List IdMapping}

theorem required_tableColumns (h : m.ids = first :: later) :
    (m.tableColumns.filter (·.isRequired)).map (·.name) =
      m.sequenceColumn :: first.logColumns ++ [m.eventColumn] := by
  have hfirst : (mappingColumns first true).filter (·.isRequired) = mappingColumns first true := by
    refine List.filter_eq_self.2 fun c hc => ?_
    obtain ⟨name, -, rfl⟩ := List.mem_map.1 hc
    rfl
  have hlater : (later.flatMap (mappingColumns · false)).filter (·.isRequired) = [] := by
    refine List.filter_eq_nil_iff.2 fun c hc => ?_
    obtain ⟨mapping, -, hc⟩ := List.mem_flatMap.1 hc
    obtain ⟨name, -, rfl⟩ := List.mem_map.1 hc
    exact Bool.false_ne_true
  have hids : m.idColumns.filter (·.isRequired) = mappingColumns first true := by
    rw [idColumns, h]
    dsimp only
    rw [List.filter_append, hfirst, hlater, List.append_nil]
  rw [tableColumns, List.filter_append, List.filter_cons_of_pos rfl, hids, List.map_append,
    List.map_cons, names_mappingColumns]
  rfl

theorem events_of_leading (h : m.ids = first :: later) {row : LogRow} (e : EventType)
    (hrow : ∀ c ∈ first.logColumns, (row.column? c).isSome) :
    ∃ values, first.logColumns.mapM row.column? = some values ∧
      m.events row e = .ok (⟨first.entityType, ⟨values⟩, e⟩ ::
        later.filterMap fun k => (k.id? row).map (⟨k.entityType, ·, e⟩)) := by
  obtain ⟨values, hvalues⟩ := Option.isSome_iff_exists.1 (isSome_mapM_iff.2 hrow)
  have hid : first.id row = .ok ⟨values⟩ := by
    rw [IdMapping.id_eq_ok_iff, IdMapping.id?, hvalues]
    rfl
  refine ⟨values, hvalues, ?_⟩
  rw [events, h]
  dsimp only
  rw [hid]
  rfl

theorem events_of_missing (h : m.ids = first :: later) {row : LogRow} (e : EventType)
    (hrow : ∃ c ∈ first.logColumns, row.column? c = none) :
    ∃ c ∈ first.logColumns, row.column? c = none ∧
      m.events row e = .error (.missingId row.sequence c first.entityType) := by
  cases hid : first.id row with
  | error x =>
      obtain ⟨c, hc, hnone, rfl⟩ := IdMapping.id_eq_error hid
      refine ⟨c, hc, hnone, ?_⟩
      rw [events, h]
      dsimp only
      rw [hid]
      rfl
  | ok i =>
      obtain ⟨c, hc, hnone⟩ := hrow
      have hsome := Option.isSome_of_mem (IdMapping.id_eq_ok_iff.1 hid)
      rw [IdMapping.isSome_id?_iff] at hsome
      have hvalue := hsome c hc
      rw [hnone] at hvalue
      cases hvalue

end LogModel

namespace Sql

namespace Value

/-- The value is the id of an entity, or NULL. -/
def isId : Value → Bool
  | null | integer _ | text _ => true
  | real _ | blob _ => false

def isInteger : Value → Bool
  | integer _ => true
  | _ => false

theorem exists_of_isId {v : Value} (h : v.isId = true) :
    ∃ id : Option IdValue, v = (id.map IdValue.toSql).getD .null := by
  cases v with
  | null => exact ⟨none, rfl⟩
  | integer n => exact ⟨some (.integer n), rfl⟩
  | text s => exact ⟨some (.text s), rfl⟩
  | real | blob => cases h

theorem exists_of_isInteger {v : Value} (h : v.isInteger = true) : ∃ n, v = .integer n := by
  cases v with
  | integer n => exact ⟨n, rfl⟩
  | null | real | text | blob => cases h

end Value

namespace Table

variable {t : Table} {row : Row}

theorem valueIn_of_length (hd : Distinct t.columns) (hl : row.length = t.columns.length) {c : Column}
    (hc : c ∈ t.columns) : ∃ v, t.valueIn row c.name = some v ∧ (c, v) ∈ t.columns.zip row := by
  have hcolumns : (t.columns.zip row).map (·.1) = t.columns := List.map_fst_zip (Nat.le_of_eq hl.symm)
  have hmem := hc
  rw [← hcolumns] at hmem
  obtain ⟨⟨c', v⟩, hcell, rfl⟩ := List.mem_map.1 hmem
  have hnodup : ((t.columns.zip row).map fun cell => foldCase cell.1.name).Nodup := by
    rw [Distinct, ← hcolumns, List.map_map] at hd
    exact hd
  have hfind := find?_of_mem hnodup hcell
  refine ⟨v, ?_, hcell⟩
  simp only [valueIn, sameName, hfind]
  rfl

theorem read_ne_null (hd : Distinct t.columns) (hl : row.length = t.columns.length)
    (hrow : t.checkRow row = .ok ()) {c : Column} (hc : c ∈ t.columns) (hnull : c.notNull = true)
    (hid : c.isRowId = false) (id : Int64) : t.read id row c.name ≠ .null := by
  obtain ⟨v, hv, hcell⟩ := valueIn_of_length hd hl hc
  rw [checkRow] at hrow
  cases hfind : (t.columns.zip row).find? fun c => c.1.notNull && !c.1.isRowId && c.2 = .null with
  | some cell =>
      simp only [hfind] at hrow
      cases hrow
  | none =>
      have hvalue := List.find?_eq_none.1 hfind (c, v) hcell
      simp only [hnull, hid, Bool.not_false, Bool.and_self, Bool.true_and, decide_eq_true_iff] at hvalue
      rw [read, hv]
      exact hvalue

end Table

end Sql

namespace LogModel

/-- A row that a table admits, with ids and an event code that can be read. -/
structure Accepts (m : LogModel) (t : Table) (r : Int64 × Row) : Prop where
  length : r.2.length = t.columns.length
  constraints : t.checkRow r.2 = .ok ()
  ids : ∀ c ∈ m.logColumns, (t.read r.1 r.2 c).isId = true
  event : (t.read r.1 r.2 m.eventColumn).isInteger = true

variable {m : LogModel} {first : IdMapping} {later : List IdMapping} {t : Table} {r : Int64 × Row}

theorem leading_mem (h : m.ids = first :: later) {name : String} (hname : name ∈ first.logColumns) :
    ⟨name, .id first.columnType true⟩ ∈ m.tableColumns := by
  have hid : ⟨name, .id first.columnType true⟩ ∈ m.idColumns := by
    rw [idColumns, h]
    exact List.mem_append_left _ (List.mem_map.2 ⟨name, hname, rfl⟩)
  exact List.mem_append_left _ (List.mem_cons_of_mem _ hid)

theorem Accepts.read_leading (ht : m.Stored t) (hm : m.Creatable) (h : m.Accepts t r)
    (hfirst : m.ids = first :: later) {name : String} (hname : name ∈ first.logColumns) :
    t.read r.1 r.2 name ≠ .null := by
  have hcolumn := ht.mem_columns (leading_mem hfirst hname)
  have hread := Table.read_ne_null (ht.distinct hm) h.length h.constraints hcolumn
  rw [logColumn_name] at hread
  cases htype : first.columnType <;> rw [htype] at hread <;> exact hread rfl rfl r.1

theorem Accepts.decodes {db : Database} (ht : m.Stored t) (hm : m.Creatable) (hq : m.Queryable)
    (hv : m.validate = .ok ()) (hr : r ∈ t.rows.toList) (h : m.Accepts t r) :
    ∃ raw row, SqlLog.readRow m db t r = .ok raw ∧ SqlLog.decodeRow m raw = .ok row ∧
      m.Decodes row := by
  obtain ⟨n, hn⟩ := Value.exists_of_isInteger h.event
  choose! ids hids using fun c hc => Value.exists_of_isId (h.ids c hc)
  -- The row as it is decoded. A column that holds NULL is not in it.
  let row : LogRow := ⟨r.1, n, .ofList (m.logColumns.filterMap fun c => (ids c).map (c, ·))⟩
  have hget (c : String) : row.column? c = if c ∈ m.logColumns then ids c else none :=
    SqlLog.get?_ofList_filterMap m.logColumns ids c
  have heval {c : String} (hc : c ∈ SqlLog.readColumns m) :
      SqlLog.evaluate db t r c = t.read r.1 r.2 c := SqlLog.evaluate_eq (hq c hc) r
  have hvalues : (m.logColumns.map fun c => (c, SqlLog.evaluate db t r c)) =
      m.logColumns.map fun c => (c, ((row.column? c).map IdValue.toSql).getD .null) := by
    refine List.map_congr_left fun c hc => ?_
    rw [hget, if_pos hc, ← hids c hc,
      heval (List.mem_cons_of_mem _ (List.mem_cons_of_mem _ hc))]
  have hread : SqlLog.readRow m db t r = .ok ⟨row.sequence, row.code,
      m.logColumns.map fun c => (c, ((row.column? c).map IdValue.toSql).getD .null)⟩ := by
    simp only [SqlLog.readRow, SqlLog.readInteger, heval (List.mem_cons_self ..),
      heval (List.mem_cons_of_mem _ (List.mem_cons_self ..)), ht.keyed r hr, hn, hvalues]
    rfl
  refine ⟨_, row, hread, SqlLog.decodeRow_eq fun name hname => ?_, fun e => ?_⟩
  · have hsome : (row.column? name).isSome := SortedMap.mem_keys.1 hname
    rw [hget] at hsome
    by_contra hnot
    rw [if_neg hnot] at hsome
    cases hsome
  · obtain ⟨first, later, hfirst⟩ := List.exists_cons_of_ne_nil (validate_ok hv).1
    have hleading : ∀ c ∈ first.logColumns, (row.column? c).isSome := by
      intro c hc
      have hlog : c ∈ m.logColumns := mem_logColumns hv (hfirst ▸ List.mem_cons_self ..) hc
      have hvalue := h.read_leading ht hm hfirst hc
      rw [hids c hlog] at hvalue
      rw [hget, if_pos hlog]
      cases hid : ids c with
      | none =>
          rw [hid] at hvalue
          exact absurd rfl hvalue
      | some v => rfl
    obtain ⟨values, -, hevents⟩ := events_of_leading hfirst e hleading
    exact ⟨_, hevents⟩

end LogModel

namespace SqlLog

variable {m : LogModel} {log : SqlLog} {t : Table}

theorem Installed.readRows_ok (h : Installed m log.db t) (hq : m.Queryable)
    (hrows : ∀ r ∈ t.rows.toList, m.Accepts t r) :
    ∃ rows, readRows m log.db t t.rows.toList = .ok rows ∧ ∀ row ∈ rows, m.Decodes row := by
  have hv := LogModel.validate_of_validateNames h.names
  obtain ⟨raws, hraws, hdecode⟩ := exists_mapM_ok (f := readRow m log.db t)
    (P := fun raw => ∃ row, decodeRow m raw = .ok row ∧ m.Decodes row) fun r hr => by
      obtain ⟨raw, row, hraw, hrow⟩ := (hrows r hr).decodes h.toStored h.creatable hq hv hr
      exact ⟨raw, hraw, row, hrow⟩
  obtain ⟨rows, hrows, hall⟩ := exists_mapM_ok hdecode
  exact ⟨rows, readRows_eq_ok.2 ⟨raws, hraws, hrows⟩, hall⟩

/-- The log table has a row that windows show. They leave out the least sequence id. -/
def Waits (log : SqlLog) (m : LogModel) : Prop :=
  ∃ t, log.db.table? m.logTable = some t ∧ ∃ r ∈ t.rows.toList, r.1 ≠ Int64.minValue

theorem Installed.fetch_decodes (h : Installed m log.db t) (hq : m.Queryable)
    (hrows : ∀ r ∈ t.rows.toList, m.Accepts t r) (after : Option Int64) (limit : Nat) : Ends (store.fetch m after limit) log
      (fun rows log' => (LogRow.Ascending rows ∧ (∀ r ∈ rows, Window.beyond after r ∧ m.Decodes r) ∧
        (after = none → 0 < limit → log.Waits m → rows ≠ [])) ∧ log' = log) fun _ _ => False := by
  obtain ⟨rows, hread, hall⟩ := h.readRows_ok hq hrows
  have hwindow := readRows_window hq h.toStored hread
    (fun n => after.all (· < n) ∧ ¬ (after = none ∧ n = Int64.minValue)) limit
  have hfetch := h.fetch_outcome hq after limit
  rw [hwindow] at hfetch
  refine ends_of_outcome hfetch ⟨⟨?_, fun r hr => ?_, ?_⟩, rfl⟩
  · exact ((readRows_ascending hq h.toStored hread).filter _).sublist (List.take_sublist ..)
  · obtain ⟨hr, hp⟩ := List.mem_filter.1 (List.mem_of_mem_take hr)
    exact ⟨(of_decide_eq_true hp).1, hall r hr⟩
  · rintro rfl hlimit ⟨t', ht', r, hr, hleast⟩
    obtain rfl := Option.some.inj (h.table.symm.trans ht')
    have hkey : r.1 ∈ rows.map (·.sequence) :=
      readRows_keys hq h.toStored hread ▸ List.mem_map_of_mem hr
    obtain ⟨row, hrow, hsequence⟩ := List.mem_map.1 hkey
    have hne : row.sequence ≠ Int64.minValue := fun h => hleast (hsequence.symm.trans h)
    rw [ne_eq, List.take_eq_nil_iff, not_or]
    refine ⟨Nat.ne_of_gt hlimit, List.ne_nil_of_mem (List.mem_filter.2 ⟨hrow, ?_⟩)⟩
    simp [hne]

end SqlLog

namespace LogModel

end LogModel

end ChangeFeed

namespace ChangeFeed.Sample

open Act Sql

def capturePoller (m : LogModel) : Poller Unit := ⟨[m], [], {}⟩

def emptyPlace : Table :=
  ⟨"place", [{ name := "id", affinity := .numeric }, { name := "sorcerer_id", affinity := .numeric }], ∅⟩

/-- Capture was installed, and nothing was captured so far. -/
def placeCapture (m : LogModel) : Database where
  tables := .ofList [("place", emptyPlace), (m.logTable, filled m []), (counterName, counterAt 0)]
  triggers := [.delete, .update, .insert].map m.trigger

example : SqlLog.install { tables := .ofList [("place", emptyPlace)] } [castLog] .create =
    .ok (placeCapture castLog) := by
  decide +kernel

def afterChange (m : LogModel) (c : Change) : Database :=
  (((placeCapture m).change c).toOption.map (·.1)).getD {}

def lonePlace : Change := .insert false "place" [("id", .integer 7)]

def halfPlace : Change := .insert false "place" [("id", .real ⟨false, 15, -1⟩)]

end ChangeFeed.Sample
