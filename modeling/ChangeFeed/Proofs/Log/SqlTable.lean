import ChangeFeed.Log.Sql
import ChangeFeed.Proofs.Log.Tables
import ChangeFeed.Proofs.Sql.Table

namespace ChangeFeed

open Sql LogRow

def IdValue.toSql : IdValue → Value
  | integer n => .integer n
  | text s => .text s

def LogColumn.cell (r : LogRow) (c : LogColumn) : Value :=
  match c.role with
  | .sequence => .integer r.sequence
  | .id .. => ((r.column? c.name).map IdValue.toSql).getD .null
  | .event => .integer r.code

@[simp] theorem logColumn_name (c : LogColumn) : (logColumn c).name = c.name := by
  obtain ⟨name, role⟩ := c
  rcases role with _ | ⟨_ | _, _⟩ | _ <;> rfl

namespace LogModel

variable {m : LogModel}

def cells (m : LogModel) (r : LogRow) : Row := m.tableColumns.map (·.cell r)

/-- The statement that creates the log table can be carried out. -/
def Creatable (m : LogModel) : Prop :=
  (({} : Database).run (.createLogTable m.logTable m.tableColumns)).isOk = true

instance (m : LogModel) : Decidable m.Creatable := by
  unfold Creatable
  infer_instance

theorem Creatable.run (h : m.Creatable) :
    ∃ db, ({} : Database).run (.createLogTable m.logTable m.tableColumns) = .ok db := by
  rw [Creatable] at h
  cases hr : ({} : Database).run (.createLogTable m.logTable m.tableColumns) with
  | ok db => exact ⟨db, rfl⟩
  | error e =>
      rw [hr] at h
      cases h

theorem Creatable.words (h : m.Creatable) :
    ∀ name ∈ m.logTable :: m.tableColumns.map (·.name), isReserved name = false := by
  obtain ⟨db, hdb⟩ := h.run
  exact isReserved_of_checkWords (Database.checked_of_createLogTable hdb).1

theorem Creatable.distinct (h : m.Creatable) : Distinct (m.tableColumns.map logColumn) := by
  obtain ⟨db, hdb⟩ := h.run
  obtain ⟨ht, -⟩ | ⟨-, hd, -⟩ := Database.run_createLogTable hdb
  · simp [Database.table?] at ht
  · exact hd

theorem sequence_mem (m : LogModel) : ⟨m.sequenceColumn, .sequence⟩ ∈ m.tableColumns := by
  simp [tableColumns]

theorem event_mem (m : LogModel) : ⟨m.eventColumn, .event⟩ ∈ m.tableColumns := by
  simp [tableColumns]

theorem idColumn_mem {name : String} (h : name ∈ m.logColumns) :
    ∃ type required, ⟨name, .id type required⟩ ∈ m.tableColumns := by
  obtain ⟨pair, hp, rfl⟩ := List.mem_map.1 h
  obtain ⟨mapping, hm, hp⟩ := List.mem_flatMap.1 hp
  obtain ⟨c, hc, rfl⟩ := List.mem_map.1 hp
  have hname : c.1 ∈ mapping.logColumns := (List.of_mem_zip hc).1
  suffices hid : ∃ required, ⟨c.1, .id mapping.columnType required⟩ ∈ m.idColumns by
    obtain ⟨required, hid⟩ := hid
    exact ⟨mapping.columnType, required, by simp [tableColumns, hid]⟩
  have hcol (required : Bool) :
      ⟨c.1, .id mapping.columnType required⟩ ∈ mappingColumns mapping required :=
    List.mem_map.2 ⟨c.1, hname, rfl⟩
  rw [idColumns]
  cases hids : m.ids with
  | nil =>
      rw [hids] at hm
      cases hm
  | cons first later =>
      rw [hids] at hm
      rcases List.mem_cons.1 hm with rfl | hm
      · exact ⟨true, List.mem_append_left _ (hcol true)⟩
      · exact ⟨false, List.mem_append_right _ (List.mem_flatMap.2 ⟨mapping, hm, hcol false⟩)⟩

/-- In a query, the name of each column that is read stands for the column. -/
def Queryable (m : LogModel) : Prop := ∀ c ∈ SqlLog.readColumns m, isColumnName c = true

instance (m : LogModel) : Decidable m.Queryable := by
  unfold Queryable
  infer_instance

theorem mem_readColumns {name : String} (h : name ∈ SqlLog.readColumns m) :
    ∃ c ∈ m.tableColumns, c.name = name := by
  rcases List.mem_cons.1 h with rfl | h
  · exact ⟨_, m.sequence_mem, rfl⟩
  rcases List.mem_cons.1 h with rfl | h
  · exact ⟨_, m.event_mem, rfl⟩
  · obtain ⟨type, required, hc⟩ := idColumn_mem h
    exact ⟨_, hc, rfl⟩

/-- The table is the log table of a model, with any rows. Its sequence column is the row id. -/
structure Stored (m : LogModel) (t : Table) : Prop where
  name : sameName m.logTable t.name
  columns : t.columns = m.tableColumns.map logColumn
  keyed : ∀ r ∈ t.rows.toList, t.read r.1 r.2 m.sequenceColumn = .integer r.1

section

variable {t : Table} (ht : m.Stored t)
include ht

theorem Stored.mem_columns {c : LogColumn} (hc : c ∈ m.tableColumns) : logColumn c ∈ t.columns := by
  rw [ht.columns]
  exact List.mem_map_of_mem hc

theorem Stored.hasColumn {c : LogColumn} (hc : c ∈ m.tableColumns) : t.hasColumn c.name = true := by
  have h := Table.hasColumn_of_mem (ht.mem_columns hc)
  rwa [logColumn_name] at h

theorem Stored.without (ids : List Int64) : m.Stored (t.without ids) where
  name := ht.name
  columns := ht.columns
  keyed r hr := ht.keyed r (List.mem_filter.1 hr).1

variable (hm : m.Creatable)
include hm

theorem Stored.distinct : Distinct t.columns := by
  rw [ht.columns]
  exact hm.distinct

theorem Stored.affinityOf_sequence : t.affinityOf m.sequenceColumn = .numeric := by
  have h := Table.affinityOf_of_mem (ht.distinct hm) (ht.mem_columns m.sequence_mem)
  rwa [logColumn_name] at h

theorem Stored.select_eq (ids : List Int64) : t.select [(m.sequenceColumn, ids.map .integer)] =
    (t.rows.toList.filter (·.1 ∈ ids)).map (·.1) := by
  rw [Table.select]
  refine congrArg _ (List.filter_congr fun r hr => ?_)
  simp only [Table.satisfies, List.all_cons, List.all_nil, Bool.and_true, ht.keyed r hr,
    ht.affinityOf_sequence hm, List.any_map]
  rw [Bool.eq_iff_iff, List.any_eq_true, decide_eq_true_iff]
  constructor
  · rintro ⟨n, hn, h⟩
    simp only [Function.comp_apply, apply_numeric_integer, Value.meets_integer, decide_eq_true_iff] at h
    exact h ▸ hn
  · intro h
    exact ⟨r.1, h, by simp⟩

theorem Stored.without_select (ids : List Int64) :
    t.without (t.select [(m.sequenceColumn, ids.map .integer)]) = t.without ids := by
  have hrows : (t.rows.filter fun id _ => id ∉ t.select [(m.sequenceColumn, ids.map .integer)]) =
      t.rows.filter fun id _ => id ∉ ids := by
    refine SortedMap.eq_of_toList (List.filter_congr fun r hr => ?_)
    rw [ht.select_eq hm, decide_eq_decide, List.mem_map]
    refine not_congr ?_
    constructor
    · rintro ⟨s, hs, he⟩
      exact he ▸ of_decide_eq_true (List.mem_filter.1 hs).2
    · intro h
      exact ⟨r, List.mem_filter.2 ⟨hr, decide_eq_true h⟩, rfl⟩
  rw [Table.without, hrows]
  rfl

end

/-- The table is the log table of a model, with the given rows. -/
structure Holds (m : LogModel) (t : Table) (rows : List LogRow) : Prop where
  name : sameName m.logTable t.name
  columns : t.columns = m.tableColumns.map logColumn
  rows : t.rows.toList = rows.map fun r => (r.sequence, m.cells r)

instance (m : LogModel) (t : Table) (rows : List LogRow) : Decidable (m.Holds t rows) :=
  decidable_of_iff (sameName m.logTable t.name ∧ t.columns = m.tableColumns.map logColumn ∧
      t.rows.toList = rows.map fun r => (r.sequence, m.cells r))
    ⟨fun h => ⟨h.1, h.2.1, h.2.2⟩, fun h => ⟨h.name, h.columns, h.rows⟩⟩

section

variable {t : Table} {rows : List LogRow} (ht : m.Holds t rows)
include ht

theorem Holds.ascending : Ascending rows := by
  have h := t.rows.ascending
  rw [ht.rows, List.pairwise_map] at h
  exact h.imp fun hab => Std.compare_eq_lt.1 hab

theorem Holds.without (ids : List Int64) :
    m.Holds (t.without ids) (rows.filter (·.sequence ∉ ids)) where
  name := ht.name
  columns := ht.columns
  rows := by
    show t.rows.toList.filter _ = _
    rw [ht.rows, List.filter_map]
    rfl

variable (hm : m.Creatable)
include hm

theorem Holds.read {c : LogColumn} (hc : c ∈ m.tableColumns) (id : Int64) (r : LogRow) :
    t.read id (m.cells r) c.name = c.cell r := by
  have hd : Distinct t.columns := by
    rw [ht.columns]
    exact hm.distinct
  have h := Table.read_of_mem hd ht.columns hc (fun c => c.cell r) id
  rwa [logColumn_name] at h

theorem Holds.stored : m.Stored t where
  name := ht.name
  columns := ht.columns
  keyed := by
    rw [ht.rows]
    exact List.forall_mem_map.2 fun r _ => ht.read hm m.sequence_mem r.sequence r

theorem Holds.length_select (ids : List Int64) :
    (t.select [(m.sequenceColumn, ids.map .integer)]).length =
      (rows.filter (·.sequence ∈ ids)).length := by
  rw [(ht.stored hm).select_eq hm, ht.rows, List.filter_map, List.length_map, List.length_map]
  rfl

end

end LogModel

namespace SqlLog

variable {m : LogModel} {db : Database} {t : Table} {rows : List LogRow}

theorem Mention.fault?_eq_none {c : Mention} (hw : isReserved c.name = false)
    (hc : c.role ≠ .table → isColumnName c.name = true) : c.fault? = none := by
  have hreserved : foldCase c.name ∉ reservedWords := of_decide_eq_false hw
  have hopeners : foldCase c.name ∉ c.openers := by
    intro hmem
    rw [openers] at hmem
    split at hmem
    next => cases hmem
    next hrole =>
      exact of_decide_eq_true (hc (by rw [hrole]; decide)) (List.mem_append_left _ hmem)
    next hrole =>
      rcases List.mem_cons.1 hmem with he | hmem
      · exact hreserved (he ▸ by decide)
      rcases List.mem_cons.1 hmem with he | hmem
      · exact hreserved (he ▸ by decide)
      · exact of_decide_eq_true (hc (by rw [hrole]; decide)) (List.mem_append_left _ hmem)
  rw [fault?, if_neg hopeners, hw]
  rfl

theorem Mention.mem_ofColumns {last : String} {offset : Nat} {names : List String} {c : Mention}
    (h : c ∈ ofColumns last offset names) : c.role = .column ∧ c.name ∈ names := by
  induction offset, names using ofColumns.induct with
  | case1 => cases h
  | case2 offset name =>
      obtain rfl := List.mem_singleton.1 h
      exact ⟨rfl, List.mem_cons_self ..⟩
  | case3 offset name rest hrest ih =>
      rw [ofColumns] at h
      · rcases List.mem_cons.1 h with rfl | h
        · exact ⟨rfl, List.mem_cons_self ..⟩
        · exact (ih h).imp_right (List.mem_cons_of_mem _)
      · exact hrest

theorem Query.open_ok {q : Query} (ht : db.table? q.table = some t)
    (hw : ∀ c ∈ q.mentions, isReserved c.name = false)
    (hc : ∀ c ∈ q.mentions, c.role ≠ .table → isColumnName c.name = true ∧ t.hasColumn c.name = true) :
    q.open db = .ok t := by
  have hwords : q.mentions.findSome? Mention.fault? = none :=
    List.findSome?_eq_none_iff.2 fun c h => Mention.fault?_eq_none (hw c h) fun hr => (hc c h hr).1
  have hcolumns : (q.mentions.find? fun c => c.role ≠ .table && (db.valueOf? c.name).isNone &&
      !t.hasColumn c.name) = none := by
    rw [List.find?_eq_none]
    intro c h
    by_cases hr : c.role = .table
    · simp [hr]
    · simp [(hc c h hr).2]
  rw [Query.open, hwords]
  simp only [Database.find_of_some ht, bind, Except.bind, hcolumns]
  rfl

theorem evaluate_eq {name : String} (h : isColumnName name = true) (r : Int64 × Row) :
    evaluate db t r name = t.read r.1 r.2 name := by
  rw [evaluate, Database.valueOf?_eq_none h]
  rfl

section

variable (hm : m.Creatable) (hq : m.Queryable) (ht : m.Stored t)
include hm hq ht

theorem windowQuery_open (hdb : db.table? m.logTable = some t) : (windowQuery m).open db = .ok t := by
  have hmention (c : Mention) (hc : c ∈ (windowQuery m).mentions) :
      (c.role ≠ .table ∧ c.name ∈ readColumns m) ∨ (c.role = .table ∧ c.name = m.logTable) := by
    rcases List.mem_cons.1 hc with rfl | hc
    · exact .inl ⟨by simp, List.mem_cons_self ..⟩
    rcases List.mem_append.1 hc with hc | hc
    · obtain ⟨hrole, hname⟩ := Mention.mem_ofColumns hc
      exact .inl ⟨by rw [hrole]; decide, List.mem_cons_of_mem _ hname⟩
    · obtain rfl := List.mem_singleton.1 hc
      exact .inr ⟨rfl, rfl⟩
  refine Query.open_ok hdb ?_ ?_
  · intro c hc
    apply hm.words
    rcases hmention c hc with ⟨-, hname⟩ | ⟨-, hname⟩
    · obtain ⟨k, hk, he⟩ := LogModel.mem_readColumns hname
      exact List.mem_cons_of_mem _ (List.mem_map.2 ⟨k, hk, he⟩)
    · exact hname ▸ List.mem_cons_self ..
  · intro c hc hrole
    rcases hmention c hc with ⟨-, hname⟩ | ⟨htable, -⟩
    · obtain ⟨k, hk, he⟩ := LogModel.mem_readColumns hname
      exact ⟨hq _ hname, he ▸ ht.hasColumn hk⟩
    · exact absurd htable hrole

theorem deleteQuery_open (hdb : db.table? m.logTable = some t) (n : Nat) :
    (deleteQuery m n).open db = .ok t := by
  refine Query.open_ok hdb ?_ ?_
  · intro c hc
    apply hm.words
    rcases List.mem_cons.1 hc with rfl | hc
    · exact List.mem_cons_self ..
    · obtain rfl := List.mem_singleton.1 hc
      exact List.mem_cons_of_mem _ (List.mem_map.2 ⟨_, m.sequence_mem, rfl⟩)
  · intro c hc hrole
    rcases List.mem_cons.1 hc with rfl | hc
    · exact absurd rfl hrole
    · obtain rfl := List.mem_singleton.1 hc
      exact ⟨hq _ (List.mem_cons_self ..), ht.hasColumn m.sequence_mem⟩

theorem rowsAfter_eq (bound : Int64) :
    rowsAfter m db t bound = t.rows.toList.filter (bound < ·.1) := by
  have hsequence := hq m.sequenceColumn (List.mem_cons_self ..)
  have hread (r : Int64 × Row) (hr : r ∈ t.rows.toList) :
      evaluate db t r m.sequenceColumn = .integer r.1 :=
    (evaluate_eq hsequence r).trans (ht.keyed r hr)
  have hlater : (t.rows.toList.filter fun r =>
      evaluate db t r m.sequenceColumn ≠ .null &&
        compare (evaluate db t r m.sequenceColumn) (.integer bound) == .gt) =
      t.rows.toList.filter (bound < ·.1) := by
    refine List.filter_congr fun r hr => ?_
    have hgt : (compare r.1 bound == .gt) = decide (bound < r.1) := by
      rw [Bool.eq_iff_iff, beq_iff_eq, decide_eq_true_iff, Std.compare_eq_gt]
    simp only [hread r hr, Value.compare_integer, hgt]
    simp
  rw [rowsAfter, ht.affinityOf_sequence hm, Database.valueOf?_eq_none hsequence]
  show (List.filter _ t.rows.toList).mergeSort _ = _
  rw [Option.isSome_none, if_neg Bool.false_ne_true, apply_numeric_integer, hlater]
  apply List.mergeSort_of_pairwise
  refine (t.rows.ascending.filter _).imp_of_mem ?_
  intro a b ha hb hab
  dsimp only
  rw [hread a (List.mem_filter.1 ha).1, hread b (List.mem_filter.1 hb).1, Value.compare_integer, hab]
  rfl

end

theorem hasSequence_eq (hq : m.Queryable) (ids : List Int64) :
    hasSequence m db ids = (m.sequenceColumn, ids.map .integer) := by
  rw [hasSequence, Database.valueOf?_eq_none (hq _ (List.mem_cons_self ..))]
  rfl

def readRows (m : LogModel) (db : Database) (t : Table) (rs : List (Int64 × Row)) :
    Except Failure (List LogRow) := do
  (← ofSql (rs.mapM (readRow m db t))).mapM (decodeRow m)

/-- A window reads the first rows after its bound, and without one the first after the least id. -/
theorem window_eq_readRows (hnames : m.validateNames = .ok ()) (hm : m.Creatable)
    (hq : m.Queryable) (ht : m.Stored t) (hdb : db.table? m.logTable = some t) (after : Option Int64)
    (limit : Nat) : window db m after limit =
      readRows m db t ((t.rows.toList.filter (after.getD Int64.minValue < ·.1)).take limit) := by
  rw [window, hnames, windowQuery_open hm hq ht hdb]
  simp only [ofModel, ofSql, bind, Except.bind, readRows, rowsAfter_eq hm hq ht]

section

variable (hm : m.Creatable) (hq : m.Queryable) (ht : m.Holds t rows)
include hm hq ht

theorem evaluate_cells (r : LogRow) {c : LogColumn} (hc : c ∈ m.tableColumns)
    (hread : c.name ∈ readColumns m) : evaluate db t (r.sequence, m.cells r) c.name = c.cell r :=
  (evaluate_eq (hq _ hread) _).trans (ht.read hm hc r.sequence r)

theorem readRow_eq (r : LogRow) : readRow m db t (r.sequence, m.cells r) =
    .ok ⟨r.sequence, r.code,
      m.logColumns.map fun c => (c, ((r.column? c).map IdValue.toSql).getD .null)⟩ := by
  have hs : evaluate db t (r.sequence, m.cells r) m.sequenceColumn = .integer r.sequence :=
    evaluate_cells hm hq ht r m.sequence_mem (List.mem_cons_self ..)
  have he : evaluate db t (r.sequence, m.cells r) m.eventColumn = .integer r.code :=
    evaluate_cells hm hq ht r m.event_mem (List.mem_cons_of_mem _ (List.mem_cons_self ..))
  have hids : (m.logColumns.map fun c => (c, evaluate db t (r.sequence, m.cells r) c)) =
      m.logColumns.map fun c => (c, ((r.column? c).map IdValue.toSql).getD .null) := by
    refine List.map_congr_left fun c hc => ?_
    obtain ⟨type, required, hmem⟩ := LogModel.idColumn_mem hc
    have hread : c ∈ readColumns m := List.mem_cons_of_mem _ (List.mem_cons_of_mem _ hc)
    exact congrArg (c, ·) (evaluate_cells hm hq ht r hmem hread)
  simp only [readRow, readInteger, hs, he, hids]
  rfl

end

theorem get?_ofList_filterMap {β : Type} (l : List String) (f : String → Option β) (k : String) :
    (SortedMap.ofList (l.filterMap fun c => (f c).map (c, ·))).get? k =
      if k ∈ l then f k else none := by
  have hfold (m : SortedMap String β) :
      ((l.filterMap fun c => (f c).map (c, ·)).foldl (fun m e => m.insert e.1 e.2) m).get? k =
        if k ∈ l ∧ (f k).isSome then f k else m.get? k := by
    induction l generalizing m with
    | nil => simp
    | cons c l ih =>
        cases hc : f c with
        | none =>
            simp only [List.filterMap_cons, hc, Option.map_none, ih]
            by_cases hk : k = c
            · simp [hk, hc]
            · simp [hk]
        | some v =>
            simp only [List.filterMap_cons, hc, Option.map_some, List.foldl_cons, ih,
              SortedMap.get?_insert]
            by_cases hk : k = c
            · simp [hk, hc]
            · simp [hk]
  rw [SortedMap.ofList, hfold]
  cases f k <;> simp

theorem idValue_toSql (m : LogModel) (column : String) (v : Option IdValue) :
    idValue m column ((v.map IdValue.toSql).getD .null) = .ok v := by
  cases v with
  | none => rfl
  | some v => cases v <;> rfl

theorem decodeRow_eq {r : LogRow} (hr : ∀ name ∈ r.columns.keys, name ∈ m.logColumns) :
    decodeRow m ⟨r.sequence, r.code,
      m.logColumns.map fun c => (c, ((r.column? c).map IdValue.toSql).getD .null)⟩ = .ok r := by
  have hcolumns : SortedMap.ofList
      ((m.logColumns.map fun c => (c, r.column? c)).filterMap fun c => c.2.map (c.1, ·)) =
      r.columns := by
    refine SortedMap.ext_get? fun name => ?_
    rw [List.filterMap_map]
    refine (get?_ofList_filterMap m.logColumns r.column? name).trans ?_
    split
    next => rfl
    next hn =>
      have hnone : ¬ (r.column? name).isSome := fun h => hn (hr name (SortedMap.mem_keys.2 h))
      exact (Option.not_isSome_iff_eq_none.1 hnone).symm
  have hvalues : (m.logColumns.map fun c => (c, ((r.column? c).map IdValue.toSql).getD .null)).mapM
      (fun c => return (c.1, ← idValue m c.1 c.2)) =
      Except.ok (ε := Failure) (m.logColumns.map fun c => (c, r.column? c)) := by
    rw [List.mapM_map]
    refine mapM_eq_map fun c _ => ?_
    exact bind_eq_ok.2 ⟨r.column? c, idValue_toSql m c _, rfl⟩
  rw [decodeRow, hvalues]
  simp only [bind, Except.bind, hcolumns]
  rfl

theorem readRows_cells (hm : m.Creatable) (hq : m.Queryable) (ht : m.Holds t rows)
    {rs : List LogRow} (h : ∀ r ∈ rs, ∀ name ∈ r.columns.keys, name ∈ m.logColumns) :
    readRows m db t (rs.map fun r => (r.sequence, m.cells r)) = .ok rs := by
  have hraw : (rs.map fun r => (r.sequence, m.cells r)).mapM (readRow m db t) =
      .ok (rs.map fun r => ⟨r.sequence, r.code,
        m.logColumns.map fun c => (c, ((r.column? c).map IdValue.toSql).getD .null)⟩) := by
    rw [List.mapM_map]
    exact mapM_eq_map fun r _ => readRow_eq hm hq ht r
  have hdecode : (rs.map fun r => (⟨r.sequence, r.code,
        m.logColumns.map fun c => (c, ((r.column? c).map IdValue.toSql).getD .null)⟩ :
          RawRow)).mapM (decodeRow m) = .ok rs := by
    rw [List.mapM_map]
    refine (mapM_eq_map (g := id) fun r hr => ?_).trans (by rw [List.map_id])
    exact decodeRow_eq (h r hr)
  rw [readRows, hraw]
  exact hdecode

/-- The database has the log table of a model with the given rows. -/
structure Shows (db : Database) (m : LogModel) (rows : List LogRow) : Prop where
  names : m.validateNames = .ok ()
  creatable : m.Creatable
  fits : ∀ r ∈ rows, ∀ name ∈ r.columns.keys, name ∈ m.logColumns
  table : ∃ t, db.table? m.logTable = some t ∧ m.Holds t rows

instance (db : Database) (m : LogModel) (rows : List LogRow) : Decidable (Shows db m rows) :=
  decidable_of_iff (m.validateNames = .ok () ∧ m.Creatable ∧
      (∀ r ∈ rows, ∀ name ∈ r.columns.keys, name ∈ m.logColumns) ∧
      (db.table? m.logTable).any (m.Holds · rows) = true) <| by
    simp only [Option.any_eq_true, decide_eq_true_iff]
    exact ⟨fun h => ⟨h.1, h.2.1, h.2.2.1, h.2.2.2⟩, fun h => ⟨h.names, h.creatable, h.fits, h.table⟩⟩

theorem Shows.ascending (h : Shows db m rows) : Ascending rows := by
  obtain ⟨t, -, ht⟩ := h.table
  exact ht.ascending

theorem window_eq (h : Shows db m rows) (hq : m.Queryable)
    (hmin : ∀ r ∈ rows, Int64.minValue < r.sequence) (after : Option Int64) (limit : Nat) :
    window db m after limit =
      .ok ((rows.filter fun r => after.all (· < r.sequence)).take limit) := by
  obtain ⟨t, hdb, ht⟩ := h.table
  have hbound : (rows.filter (after.getD Int64.minValue < ·.sequence)) =
      rows.filter fun r => after.all (· < r.sequence) := by
    refine List.filter_congr fun r hr => ?_
    cases after with
    | none => simp [hmin r hr]
    | some n => rfl
  have hrows : (t.rows.toList.filter (after.getD Int64.minValue < ·.1)).take limit =
      ((rows.filter fun r => after.all (· < r.sequence)).take limit).map
        fun r => (r.sequence, m.cells r) := by
    rw [← hbound, ht.rows, List.filter_map, List.map_take]
    rfl
  rw [window_eq_readRows h.names h.creatable hq (ht.stored h.creatable) hdb, hrows]
  refine readRows_cells h.creatable hq ht fun r hr => ?_
  exact h.fits r (List.mem_filter.1 (List.mem_of_mem_take hr)).1

theorem deleteRows_ends {models : List LogModel} {v : String → List LogRow} {saved : Option Database}
    (hnames : ∀ m ∈ models, ∀ m' ∈ models, sameName m.logTable m'.logTable → m.logTable = m'.logTable)
    (h : ∀ m ∈ models, Shows db m (v m.logTable)) (hm : m ∈ models) (hq : m.Queryable)
    (hquiet : db.triggersOn m.logTable .delete = []) (ids : List Int64) :
    Act.Ends (deleteRows m ids) ⟨db, saved⟩
      (fun n log => n = ((v m.logTable).filter (·.sequence ∈ ids)).length ∧ log.saved = saved ∧
        log.db.triggers = db.triggers ∧
        ∀ m' ∈ models, Shows log.db m' (if m'.logTable = m.logTable then
          (v m'.logTable).filter (·.sequence ∉ ids) else v m'.logTable))
      fun _ _ => False := by
  obtain ⟨t, hdb, ht⟩ := (h m hm).table
  have hcreatable := (h m hm).creatable
  have hstored := ht.stored hcreatable
  have hchange := Database.change_delete [(m.sequenceColumn, ids.map .integer)] hdb ht.name
    (by simpa using hstored.hasColumn m.sequence_mem) hquiet
  rw [hstored.without_select hcreatable, ht.length_select hcreatable] at hchange
  rw [deleteRows]
  apply Act.ends_get_bind
  dsimp only
  rw [deleteQuery_open hcreatable hq hstored hdb, hasSequence_eq hq, hchange]
  refine ⟨rfl, rfl, rfl, ?_⟩
  intro m' hm'
  have hold := h m' hm'
  by_cases hname : m'.logTable = m.logTable
  · rw [if_pos hname]
    obtain ⟨t', hdb', ht'⟩ := hold.table
    obtain rfl : t' = t := by
      rw [hname, hdb] at hdb'
      exact (Option.some.inj hdb').symm
    refine ⟨hold.names, hold.creatable, ?_, t'.without ids, ?_, ht'.without ids⟩
    · intro r hr
      exact hold.fits r (List.mem_filter.1 hr).1
    · rw [Database.table?_setTable]
      exact if_pos (hname ▸ ht.name)
  · rw [if_neg hname]
    obtain ⟨t', hdb', ht'⟩ := hold.table
    refine ⟨hold.names, hold.creatable, hold.fits, t', ?_, ht'⟩
    rw [Database.table?_setTable, if_neg]
    · exact hdb'
    · intro hsame
      refine hname (hnames m' hm' m hm ?_)
      have hfold := sameName_iff.1 ht.name
      rw [sameName_iff] at hsame ⊢
      exact hsame.trans hfold.symm

end SqlLog

end ChangeFeed
