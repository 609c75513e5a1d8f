import ChangeFeed.Proofs.Lists
import ChangeFeed.Proofs.SortedMap
import ChangeFeed.Sql.Capture

namespace ChangeFeed.Sql

@[simp] theorem sameName_iff {a b : String} : sameName a b = true ↔ foldCase a = foldCase b := by
  simp [sameName]

theorem sameName_self (a : String) : sameName a a = true := by simp

namespace Value

@[simp] theorem compare_integer (a b : Int64) : compare (integer a) (integer b) = compare a b := rfl

@[simp] theorem meets_integer (a b : Int64) : (integer a).meets (integer b) = decide (a = b) := by
  have h : (compare a b == .eq) = decide (a = b) := by
    by_cases hab : a = b
    · simp [hab]
    · simp [hab]
  simpa [meets] using h

end Value

@[simp] theorem apply_numeric_integer (n : Int64) :
    Affinity.numeric.apply (.integer n) = .integer n := rfl

def Distinct (columns : List Column) : Prop := (columns.map fun c => foldCase c.name).Nodup

theorem Distinct.find? {columns : List Column} (h : Distinct columns) {c : Column} (hc : c ∈ columns)
    {name : String} (hn : sameName c.name name) :
    columns.find? (fun k => sameName k.name name) = some c := by
  rw [sameName_iff] at hn
  simpa [sameName, ← hn] using find?_of_mem h hc

theorem distinct_of_repeated_eq_none {seen : List String} {columns : List Column}
    (h : Database.createTable.repeated seen columns = none) :
    Distinct columns ∧ ∀ c ∈ columns, foldCase c.name ∉ seen := by
  induction columns generalizing seen with
  | nil => simp [Distinct]
  | cons c columns ih =>
      rw [Database.createTable.repeated] at h
      by_cases hc : foldCase c.name ∈ seen
      · rw [if_pos hc] at h
        cases h
      · rw [if_neg hc] at h
        obtain ⟨hd, hfresh⟩ := ih h
        refine ⟨?_, List.forall_mem_cons.2 ⟨hc, ?_⟩⟩
        · rw [Distinct, List.map_cons, List.nodup_cons]
          refine ⟨?_, hd⟩
          intro hmem
          obtain ⟨k, hk, he⟩ := List.mem_map.1 hmem
          exact hfresh k hk (he ▸ List.mem_cons_self ..)
        · intro k hk hs
          exact hfresh k hk (List.mem_cons_of_mem _ hs)

theorem isReserved_of_checkWords {names : List String} (h : checkWords names = .ok ()) :
    ∀ name ∈ names, isReserved name = false := by
  rw [checkWords] at h
  cases hf : names.find? isReserved with
  | some name =>
      rw [hf] at h
      cases h
  | none => simpa [List.find?_eq_none] using hf

namespace Table

variable {t : Table} {c : Column}

theorem column?_of_mem (h : Distinct t.columns) (hc : c ∈ t.columns) : t.column? c.name = some c :=
  h.find? hc (sameName_self _)

theorem hasColumn_of_mem (hc : c ∈ t.columns) : t.hasColumn c.name = true := by
  have : (t.column? c.name).isSome := by
    rw [column?, List.find?_isSome]
    exact ⟨c, hc, sameName_self _⟩
  simp [hasColumn, this]

theorem affinityOf_of_mem (h : Distinct t.columns) (hc : c ∈ t.columns) :
    t.affinityOf c.name = c.affinity := by rw [affinityOf, column?_of_mem h hc]

section

variable {κ : Type} {l : List κ} {column : κ → Column} (hd : Distinct t.columns)
  (ht : t.columns = l.map column) {k : κ} (hk : k ∈ l) (value : κ → Value)
include hd ht hk

theorem valueIn_of_mem : t.valueIn (l.map value) (column k).name = some (value k) := by
  rw [ht, Distinct, List.map_map] at hd
  have hfind := find?_of_mem hd hk
  rw [valueIn, ht, List.zip_map', List.find?_map, Option.map_map]
  simp only [Function.comp_def, sameName] at hfind ⊢
  simp [hfind]

theorem read_of_mem (id : Int64) : t.read id (l.map value) (column k).name = value k := by
  rw [read, valueIn_of_mem hd ht hk]

end

theorem mem_select {conditions : List Condition} {id : Int64} :
    id ∈ t.select conditions ↔
      ∃ row, t.rows.get? id = some row ∧ t.satisfies id row conditions = true := by
  simp only [select, List.mem_map, List.mem_filter, Prod.exists]
  constructor
  · rintro ⟨n, row, ⟨hr, hs⟩, rfl⟩
    exact ⟨row, t.rows.get?_eq_some.2 hr, hs⟩
  · rintro ⟨row, hr, hs⟩
    exact ⟨id, row, ⟨t.rows.get?_eq_some.1 hr, hs⟩, rfl⟩

theorem select_nodup (conditions : List Condition) : (t.select conditions).Nodup :=
  t.rows.keys_nodup.sublist (List.filter_sublist.map _)

def without (t : Table) (ids : List Int64) : Table :=
  { t with rows := t.rows.filter fun id _ => id ∉ ids }

@[simp] theorem name_without (t : Table) (ids : List Int64) : (t.without ids).name = t.name := rfl

@[simp] theorem columns_without (t : Table) (ids : List Int64) :
    (t.without ids).columns = t.columns := rfl

theorem mem_keys_without {ids : List Int64} {n : Int64} (h : n ∈ (t.without ids).rows.keys) :
    n ∈ t.rows.keys := by
  obtain ⟨e, he, rfl⟩ := List.mem_map.1 h
  exact List.mem_map_of_mem (List.mem_filter.1 he).1

theorem without_nil (t : Table) : t.without [] = t := by
  have hrows : (t.rows.filter fun _ _ => true) = t.rows :=
    SortedMap.eq_of_toList (List.filter_eq_self.2 fun _ _ => rfl)
  simp [without, hrows]

theorem without_cons (t : Table) (id : Int64) (ids : List Int64) :
    t.without (id :: ids) = (t.remove id).without ids := by
  have hrows : (t.rows.filter fun n _ => n ∉ id :: ids) =
      (t.rows.erase id).filter fun n _ => n ∉ ids := by
    refine SortedMap.ext_get? fun n => ?_
    simp only [SortedMap.get?_filter, SortedMap.get?_erase]
    by_cases hn : n = id
    · cases t.rows.get? n <;> simp [hn]
    · simp [hn]
  rw [without, hrows]
  rfl

end Table

namespace Database

variable {db db' : Database} {t : Table}

theorem valueOf?_eq_none {name : String} (h : isColumnName name = true) : db.valueOf? name = none := by
  have hvalue : foldCase name ∉ valueWords := fun hmem =>
    of_decide_eq_true h (List.mem_append_right _ hmem)
  simp only [valueWords, List.mem_cons, List.not_mem_nil, or_false, not_or] at hvalue
  rw [valueOf?]
  split
  all_goals simp_all

theorem createTable_eq_ok {t : Table} (h : db.createTable true t = .ok db') :
    ((db.table? t.name).isSome = true ∧ db' = db) ∨
      (db.table? t.name = none ∧ Distinct t.columns ∧ db' = db.setTable t) := by
  rw [createTable] at h
  by_cases hn : (foldCase t.name).startsWith "sqlite_" = true
  · rw [if_pos hn] at h
    cases h
  rw [if_neg hn] at h
  by_cases ht : (db.table? t.name).isSome = true
  · rw [if_pos ht] at h
    cases h
    exact .inl ⟨ht, rfl⟩
  · rw [if_neg ht] at h
    cases hr : createTable.repeated [] t.columns with
    | some name =>
        rw [hr] at h
        cases h
    | none =>
        rw [hr] at h
        cases h
        exact .inr ⟨Option.not_isSome_iff_eq_none.1 ht, (distinct_of_repeated_eq_none hr).1, rfl⟩

section

variable {table : String} {columns : List LogColumn}
  (h : db.run (.createLogTable table columns) = .ok db')
include h

theorem checked_of_createLogTable : checkWords (table :: columns.map (·.name)) = .ok () ∧
    db.createTable true (logTable table columns) = .ok db' := by
  rw [run] at h
  split at h
  next => cases h
  next =>
    obtain ⟨⟨⟩, hwords, h⟩ := bind_eq_ok.1 h
    exact ⟨hwords, h⟩

theorem run_createLogTable : ((db.table? table).isSome = true ∧ db' = db) ∨
    (db.table? table = none ∧ Distinct (columns.map logColumn) ∧
      db' = db.setTable (logTable table columns)) :=
  createTable_eq_ok (checked_of_createLogTable h).2

end

@[simp] theorem triggers_setTable (db : Database) (t : Table) :
    (db.setTable t).triggers = db.triggers := rfl

theorem table?_setTable (db : Database) (t : Table) (name : String) :
    (db.setTable t).table? name = if sameName name t.name then some t else db.table? name := by
  simp [table?, setTable, SortedMap.get?_insert]

theorem table?_congr {a b : String} (h : sameName a b) : db.table? a = db.table? b := by
  rw [table?, table?, sameName_iff.1 h]

theorem setTable_setTable {t t' : Table} (h : sameName t.name t'.name) :
    (db.setTable t).setTable t' = db.setTable t' := by
  have htables : (db.tables.insert (foldCase t.name) t).insert (foldCase t'.name) t' =
      db.tables.insert (foldCase t'.name) t' := by
    refine SortedMap.ext_get? fun name => ?_
    simp only [SortedMap.get?_insert, sameName_iff.1 h]
    split <;> rfl
  rw [setTable, setTable, setTable, htables]

theorem setTable_self (h : db.table? t.name = some t) : db.setTable t = db := by
  have htables : db.tables.insert (foldCase t.name) t = db.tables := by
    refine SortedMap.ext_get? fun name => ?_
    rw [SortedMap.get?_insert]
    split
    next hn => rw [hn]; exact h.symm
    next => rfl
  rw [setTable, htables]

theorem find_of_some {name : String} (h : db.table? name = some t) (qualifier : String) :
    db.find qualifier name = .ok t := by rw [find, h]

theorem requireColumns_ok {error : String → SqlError} {names : List String}
    (h : ∀ n ∈ names, t.hasColumn n = true) : requireColumns t error names = .ok () := by
  have hnone : (names.find? fun n => !t.hasColumn n) = none := by
    rw [List.find?_eq_none]
    intro n hn
    simp [h n hn]
  rw [requireColumns, hnone]

theorem foldlM_deleteRow {after : AfterRow} {table : String} {ids : List Int64}
    (ht : db.table? table = some t) (hname : sameName table t.name) (hnd : ids.Nodup)
    (hin : ∀ id ∈ ids, t.rows.contains id = true)
    (hafter : ∀ db' t' id row, db'.triggers = db.triggers → t'.name = t.name →
      after db' t' id row = .ok db') (n : Nat) :
    ids.foldlM (deleteRow after table) (db, n) =
      .ok (db.setTable (t.without ids), n + ids.length) := by
  induction ids generalizing db t n with
  | nil =>
      have hself : db.setTable t = db := setTable_self (by rw [← table?_congr hname]; exact ht)
      rw [Table.without_nil, hself]
      rfl
  | cons id ids ih =>
      obtain ⟨hid, hnd⟩ := List.nodup_cons.1 hnd
      obtain ⟨row, hrow⟩ := SortedMap.contains_iff.1 (hin id (List.mem_cons_self ..))
      have hstep : deleteRow after table (db, n) id = .ok (db.setTable (t.remove id), n + 1) := by
        simp only [deleteRow, find_of_some ht, hrow, bind, Except.bind, pure, Except.pure]
        rw [hafter (db.setTable (t.remove id)) t id row rfl rfl]
      have hset : (db.setTable (t.remove id)).setTable ((t.remove id).without ids) =
          db.setTable ((t.remove id).without ids) := setTable_setTable (sameName_self _)
      have ht' : (db.setTable (t.remove id)).table? table = some (t.remove id) := by
        rw [table?_setTable]
        exact if_pos hname
      rw [List.foldlM_cons, hstep]
      refine (ih ht' hname hnd ?_ hafter (n + 1)).trans ?_
      · intro id' hid'
        have hne : id' ≠ id := fun h => hid (h ▸ hid')
        have h := hin id' (List.mem_cons_of_mem _ hid')
        rw [SortedMap.contains, Table.remove, SortedMap.get?_erase_of_ne _ hne]
        exact h
      · rw [hset, Table.without_cons, List.length_cons, Nat.add_assoc, Nat.add_comm 1]

theorem resolve_of_quiet {c : Change} {levels : Nat} {qualifier : String} {active : List String}
    (hn : db.requireNames qualifier c = .ok t) (hq : db.triggersOn c.table c.eventType = []) :
    db.resolve levels qualifier active c = .ok () := by
  cases levels with
  | zero => rw [resolve, hn]; rfl
  | succ levels => rw [resolve, hn, hq]; rfl

theorem triggersOn_congr {a b : String} (htriggers : db'.triggers = db.triggers)
    (h : sameName a b) (eventType : EventType) :
    db'.triggersOn b eventType = db.triggersOn a eventType := by
  rw [sameName_iff] at h
  simp only [triggersOn, htriggers, sameName, h]

theorem change_delete {table : String} (conditions : List Condition)
    (ht : db.table? table = some t) (hname : sameName table t.name)
    (hcols : ∀ c ∈ conditions, t.hasColumn c.1 = true) (hq : db.triggersOn table .delete = []) :
    db.change (.delete table conditions) =
      .ok (db.setTable (t.without (t.select conditions)), (t.select conditions).length) := by
  have htable : db.table? (Change.delete table conditions).table = some t := ht
  have hnames : db.requireNames "" (.delete table conditions) = .ok t := by
    rw [requireNames, find_of_some htable]
    have hreq : requireColumns t .noSuchColumn (conditions.map (·.1)) = .ok () := by
      apply requireColumns_ok
      simpa using hcols
    simp only [bind, Except.bind, hreq]
    rfl
  have hin : ∀ id ∈ t.select conditions, t.rows.contains id = true := by
    intro id hid
    obtain ⟨row, hr, -⟩ := Table.mem_select.1 hid
    exact SortedMap.contains_iff.2 ⟨row, hr⟩
  have happly (after : AfterRow) (hafter : ∀ db' t' id row, db'.triggers = db.triggers →
      t'.name = t.name → after db' t' id row = .ok db') :
      applyChange after db (.delete table conditions) =
        .ok (db.setTable (t.without (t.select conditions)), (t.select conditions).length) := by
    have hfold := foldlM_deleteRow ht hname (Table.select_nodup conditions) hin hafter 0
    rw [Nat.zero_add] at hfold
    rw [applyChange, find_of_some htable]
    exact hfold
  rw [change, resolve_of_quiet hnames hq]
  show applyWithTriggers db.triggers.length [] db (.delete table conditions) = _
  cases db.triggers.length with
  | zero => exact happly _ fun _ _ _ _ _ _ => rfl
  | succ levels =>
      rw [applyWithTriggers]
      refine happly _ fun db' t' id row htr h => ?_
      have hnone : db'.triggersOn t'.name (Change.delete table conditions).eventType = [] :=
        (triggersOn_congr htr (h ▸ hname) .delete).trans hq
      rw [hnone]
      rfl

end Database

end ChangeFeed.Sql
