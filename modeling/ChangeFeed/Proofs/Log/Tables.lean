import ChangeFeed.Log.Memory
import ChangeFeed.Proofs.Checks
import ChangeFeed.Proofs.Lists
import ChangeFeed.Proofs.Log.Merged
import ChangeFeed.Proofs.SortedMap

namespace ChangeFeed

open LogRow Merge

namespace LogModel

theorem validateAll_go_eq_ok_iff {seen : List String} {models : List LogModel} :
    validateAll.go seen models = .ok () ↔
      (∀ m ∈ models, m.validate = .ok ()) ∧ Apart seen (models.map (·.logTable)) := by
  induction models generalizing seen with
  | nil => exact iff_of_true rfl ⟨nofun, apart_nil⟩
  | cons m models ih =>
      rw [validateAll.go, check_bind_eq_ok, refuse_bind_eq_ok, ih, List.forall_mem_cons, List.map_cons,
        apart_cons, and_assoc]
      exact and_congr_right fun _ => and_left_comm

theorem validateAll_ok {models : List LogModel} (h : validateAll models = .ok ()) :
    (∀ m ∈ models, m.validate = .ok ()) ∧ (models.map (·.logTable)).Nodup := by
  obtain ⟨hvalid, hapart⟩ := validateAll_go_eq_ok_iff.1 h
  exact ⟨hvalid, hapart.1⟩

end LogModel

theorem eq_of_logTable_eq {models : List LogModel} (hnd : (models.map (·.logTable)).Nodup)
    {j k : Nat} {m m' : LogModel} (hj : models[j]? = some m') (hk : models[k]? = some m)
    (h : m'.logTable = m.logTable) : j = k := by
  have hj' : (models.map (·.logTable))[j]? = some m.logTable := by
    rw [List.getElem?_map, hj, Option.map_some, h]
  have hk' : (models.map (·.logTable))[k]? = some m.logTable := by
    rw [List.getElem?_map, hk, Option.map_some]
  exact (List.getElem?_inj (List.getElem?_eq_some_iff.1 hj').1 hnd).1 (hj'.trans hk'.symm)

namespace MemoryLog

variable {log : MemoryLog}

def Coherent (log : MemoryLog) : Prop :=
  ∀ name n row, (log.table name).get? n = some row → row.sequence = n

theorem mem_pending (h : log.Coherent) {name : String} {r : LogRow} :
    r ∈ log.pending name ↔ (log.table name).get? r.sequence = some r := by
  rw [pending, SortedMap.mem_values]
  constructor
  · intro hend
    obtain ⟨n, hn⟩ := hend
    rwa [h name n r hn]
  · intro hr
    exact ⟨_, hr⟩

theorem pending_ascending (h : log.Coherent) (name : String) : Ascending (log.pending name) := by
  refine List.pairwise_map.2 ((log.table name).ascending.imp_of_mem ?_)
  intro a b ha hb hab
  rw [h name a.1 a.2 ((log.table name).get?_eq_some.2 ha),
    h name b.1 b.2 ((log.table name).get?_eq_some.2 hb)]
  exact Std.compare_eq_lt.1 hab

def without (log : MemoryLog) (gone : List (String × Int64)) : MemoryLog := (Tx.mk log gone).commit

theorem table_without (log : MemoryLog) (gone : List (String × Int64)) (name : String) :
    (log.without gone).table name = (log.table name).filter fun n _ => (name, n) ∉ gone := by
  rw [table, without, Tx.commit, SortedMap.get?_mapValues, table]
  cases log.tables.get? name <;> rfl

theorem without_congr {as bs : List (String × Int64)} (h : ∀ x, x ∈ as ↔ x ∈ bs) :
    log.without as = log.without bs := by
  simp only [without, Tx.commit, h]

theorem without_nil (log : MemoryLog) : log.without [] = log := by
  have hrows (rows : SortedMap Int64 LogRow) : (rows.filter fun _ _ => true) = rows :=
    SortedMap.eq_of_toList (List.filter_eq_self.2 fun _ _ => rfl)
  have htables : log.tables.mapValues (fun _ rows => rows.filter fun _ _ => true) = log.tables := by
    refine SortedMap.eq_of_toList ?_
    simp [SortedMap.mapValues, hrows]
  simp [without, Tx.commit, htables]

theorem Coherent.without (h : log.Coherent) (gone : List (String × Int64)) :
    (log.without gone).Coherent := by
  intro name n row hr
  rw [table_without, SortedMap.get?_filter] at hr
  exact h name n row (Option.filter_eq_some_iff.1 hr).1

theorem pending_without (h : log.Coherent) (gone : List (String × Int64)) (name : String) :
    (log.without gone).pending name =
      (log.pending name).filter fun r => (name, r.sequence) ∉ gone := by
  rw [pending, table_without, pending, SortedMap.values, SortedMap.values, List.filter_map]
  refine congrArg _ (List.filter_congr fun e he => ?_)
  rw [Function.comp_apply, h name e.1 e.2 ((log.table name).get?_eq_some.2 he)]

/-- The rows of the tables that some models describe, in the order of their sequence ids. -/
def merged (log : MemoryLog) (models : List LogModel) : List Delivery :=
  Merge.merged (models.map fun m => log.pending m.logTable)

def keysOf (models : List LogModel) (ds : List Delivery) : List (String × Int64) :=
  ds.filterMap fun d => models[d.1]?.map fun m => (m.logTable, d.2.sequence)

theorem mem_merged {models : List LogModel} {k : Nat} {r : LogRow} :
    (k, r) ∈ log.merged models ↔ ∃ m, models[k]? = some m ∧ r ∈ log.pending m.logTable := by
  rw [merged, Merge.mem_merged, mem_tagged]
  simp only [Nat.zero_add, List.getElem?_map, Option.map_eq_some_iff]
  constructor
  · intro h
    obtain ⟨_, _, rfl, ⟨m, hm, rfl⟩, hr⟩ := h
    exact ⟨m, hm, hr⟩
  · intro h
    obtain ⟨m, hm, hr⟩ := h
    exact ⟨k, _, rfl, ⟨m, hm, rfl⟩, hr⟩

theorem ascending_tables (h : log.Coherent) (models : List LogModel) :
    ∀ rows ∈ models.map fun m => log.pending m.logTable, Ascending rows := by
  intro rows hr
  obtain ⟨m, -, rfl⟩ := List.mem_map.1 hr
  exact pending_ascending h m.logTable

theorem mem_keysOf_iff (h : log.Coherent) {models : List LogModel}
    (hnd : (models.map (·.logTable)).Nodup) {ds : List Delivery} (hds : ∀ d ∈ ds, d ∈ log.merged models)
    {k : Nat} {m : LogModel} {r : LogRow} (hk : models[k]? = some m) (hr : r ∈ log.pending m.logTable) :
    (m.logTable, r.sequence) ∈ keysOf models ds ↔ (k, r) ∈ ds := by
  constructor
  · intro hmem
    obtain ⟨⟨j, s⟩, hd, he⟩ := List.mem_filterMap.1 hmem
    obtain ⟨m', hm', he⟩ := Option.map_eq_some_iff.1 he
    obtain ⟨ht, hseq⟩ := Prod.mk.inj he
    have hjk : j = k := eq_of_logTable_eq hnd hm' hk ht
    subst hjk
    cases hm'.symm.trans hk
    obtain ⟨m'', hm'', hs⟩ := mem_merged.1 (hds _ hd)
    cases hm''.symm.trans hk
    rwa [← (pending_ascending h _).eq_of_sequence hs hr hseq]
  · intro hd
    exact List.mem_filterMap.2 ⟨(k, r), hd, by simp [hk]⟩

theorem merged_without (h : log.Coherent) {models : List LogModel}
    (hnd : (models.map (·.logTable)).Nodup) (n : Nat) :
    (log.without (keysOf models ((log.merged models).take n))).merged models =
      (log.merged models).drop n := by
  have hasc := ascending_tables h models
  refine (merged_filter (q := fun d => decide (d ∉ (log.merged models).take n)) ?_ ?_).trans
    (filter_not_mem_take (merged_nodup hasc) n)
  · intro m _
    exact pending_ascending h m.logTable
  · intro k m hk
    rw [pending_without h]
    refine List.filter_congr fun r hr => ?_
    have hiff : (m.logTable, r.sequence) ∈ keysOf models ((log.merged models).take n) ↔
        (k, r) ∈ (log.merged models).take n :=
      mem_keysOf_iff h hnd (fun d hd => List.mem_of_mem_take hd) hk hr
    simp only [hiff]

/-- No row of the log has a sequence id above those handed out. -/
structure Stamped (log : MemoryLog) : Prop where
  coherent : log.Coherent
  le_sequence : ∀ name, ∀ r ∈ log.pending name, r.sequence ≤ log.sequence

theorem pending_empty (name : String) : pending {} name = [] := rfl

theorem stamped_empty : Stamped {} where
  coherent name n row h := by cases h
  le_sequence name r h := by cases h

theorem merged_eq_nil_iff {models : List LogModel} :
    log.merged models = [] ↔ ∀ m ∈ models, log.pending m.logTable = [] := by
  rw [merged, Merge.merged_eq_nil_iff, List.forall_mem_map]

theorem merged_empty (models : List LogModel) : merged {} models = [] :=
  merged_eq_nil_iff.2 fun m _ => pending_empty m.logTable

theorem Stamped.no_maxValue (h : log.Stamped) (hmax : log.sequence ≠ Int64.maxValue) (name : String) :
    ∀ r ∈ log.pending name, r.sequence = Int64.maxValue → False := by
  intro r hr he
  have hle := h.le_sequence name r hr
  rw [he] at hle
  exact hmax (Int64.le_antisymm (Int64.le_maxValue _) hle)

theorem Stamped.without (h : log.Stamped) (gone : List (String × Int64)) :
    (log.without gone).Stamped where
  coherent := h.coherent.without gone
  le_sequence name r hr := by
    rw [pending_without h.coherent] at hr
    exact h.le_sequence name r (List.mem_filter.1 hr).1

theorem table_put (log : MemoryLog) (name name' : String) (row : LogRow) :
    (log.put name row).table name' =
      if name' = name then (log.table name).insert row.sequence row else log.table name' := by
  rw [table, put, SortedMap.get?_insert]
  by_cases h : name' = name
  · rw [if_pos h, if_pos h, Option.getD_some]
  · rw [if_neg h, if_neg h, table]

theorem Coherent.put (h : log.Coherent) (name : String) (row : LogRow) :
    (log.put name row).Coherent := by
  intro name' n row' hr
  rw [table_put] at hr
  split at hr
  next hname =>
    rw [SortedMap.get?_insert] at hr
    split at hr
    next hn =>
      cases hr
      exact hn.symm
    next => exact h name n row' hr
  next => exact h name' n row' hr

theorem Coherent.insertRow (h : log.Coherent) (name : String) (row : LogRow) :
    (log.insertRow name row).Coherent := Coherent.put h name row

theorem mem_pending_insertRow (h : log.Coherent) {name name' : String} {row r : LogRow}
    (hr : r ∈ (log.insertRow name row).pending name') : r = row ∨ r ∈ log.pending name' := by
  have htable := table_put log name name' row
  rw [mem_pending (h.insertRow name row),
    show (log.insertRow name row).table name' = (log.put name row).table name' from rfl, htable] at hr
  by_cases hname : name' = name
  · rw [if_pos hname, SortedMap.get?_insert] at hr
    by_cases hn : r.sequence = row.sequence
    · rw [if_pos hn] at hr
      exact .inl (Option.some.inj hr).symm
    · rw [if_neg hn] at hr
      exact .inr ((mem_pending h).2 (hname ▸ hr))
  · rw [if_neg hname] at hr
    exact .inr ((mem_pending h).2 hr)

def ofRows (rows : List (String × LogRow)) : MemoryLog :=
  rows.foldl (fun log x => log.insertRow x.1 x.2) {}

private theorem foldl_insertRow (rows : List (String × LogRow)) (h : log.Coherent) :
    (rows.foldl (fun log x => log.insertRow x.1 x.2) log).Coherent ∧ ∀ name,
      ∀ r ∈ (rows.foldl (fun log x => log.insertRow x.1 x.2) log).pending name,
        r ∈ log.pending name ∨ ∃ x ∈ rows, x.2 = r := by
  induction rows generalizing log with
  | nil => exact ⟨h, fun name r hr => .inl hr⟩
  | cons x rows ih =>
      obtain ⟨hc, hmem⟩ := ih (h.insertRow x.1 x.2)
      refine ⟨hc, ?_⟩
      intro name r hr
      rcases hmem name r hr with hr | ⟨y, hy, he⟩
      · rcases mem_pending_insertRow h hr with rfl | hr
        · exact .inr ⟨x, List.mem_cons_self .., rfl⟩
        · exact .inl hr
      · exact .inr ⟨y, List.mem_cons_of_mem _ hy, he⟩

theorem coherent_empty : Coherent {} := by
  intro name n row h
  cases h

theorem coherent_ofRows (rows : List (String × LogRow)) : (ofRows rows).Coherent :=
  (foldl_insertRow rows coherent_empty).1

theorem mem_pending_ofRows {rows : List (String × LogRow)} {name : String} {r : LogRow}
    (h : r ∈ (ofRows rows).pending name) : ∃ x ∈ rows, x.2 = r := by
  rcases (foldl_insertRow rows coherent_empty).2 name r h with h | h
  · cases h
  · exact h

theorem pending_put (h : log.Coherent) {name : String} {row : LogRow}
    (hrow : ∀ r ∈ log.pending name, r.sequence < row.sequence) (name' : String) :
    (log.put name row).pending name' =
      if name' = name then log.pending name ++ [row] else log.pending name' := by
  rw [pending, table_put]
  split
  next =>
    refine SortedMap.values_insert_of_lt row ?_
    intro e he
    have hlt := hrow e.2 (List.mem_map.2 ⟨e, he, rfl⟩)
    rw [h name e.1 e.2 ((log.table name).get?_eq_some.2 he)] at hlt
    exact Std.compare_eq_lt.2 hlt
  next => rfl

end MemoryLog

def LogModel.row (m : LogModel) (sequence : Int64) (eventType : EventType) (values : List IdValue) :
    LogRow :=
  ⟨sequence, eventType.code, .ofList (m.logColumns.zip values)⟩

namespace MemoryLog

variable {log log' : MemoryLog} {m : LogModel} {eventType : EventType} {values : List IdValue}
  {n : Int64}

theorem record_ok (h : log.record m eventType values = .ok (n, log')) :
    m.logColumns.length = values.length ∧ n = log.sequence + 1 ∧
      log' = { log with sequence := n }.put m.logTable (m.row n eventType values) := by
  rw [record] at h
  by_cases hl : m.logColumns.length = values.length
  · rw [if_neg (by simpa using hl)] at h
    cases h
    exact ⟨hl, rfl, rfl⟩
  · rw [if_pos (by simpa using hl)] at h
    cases h

theorem toInt_add_one {n : Int64} (h : n ≠ Int64.maxValue) : (n + 1).toInt = n.toInt + 1 := by
  have hn : n.toInt ≠ Int64.maxValue.toInt := fun he => h (Int64.toInt_inj.1 he)
  have hle := n.toInt_le
  have hge := n.le_toInt
  have hmax : Int64.maxValue.toInt = 2 ^ 63 - 1 := rfl
  rw [Int64.toInt_add, show (1 : Int64).toInt = 1 from rfl]
  exact Int.bmod_eq_of_le (by omega) (by omega)

theorem lt_of_stamped (h : log.Stamped) (hmax : log.sequence ≠ Int64.maxValue) {name : String}
    {r : LogRow} (hr : r ∈ log.pending name) : r.sequence < log.sequence + 1 := by
  have hle := Int64.le_iff_toInt_le.1 (h.le_sequence name r hr)
  rw [Int64.lt_iff_toInt_lt, toInt_add_one hmax]
  omega

theorem pending_record (h : log.Stamped) (hmax : log.sequence ≠ Int64.maxValue)
    (hr : log.record m eventType values = .ok (n, log')) (name : String) : log'.pending name =
      if name = m.logTable then log.pending name ++ [m.row n eventType values]
      else log.pending name := by
  obtain ⟨-, rfl, rfl⟩ := record_ok hr
  refine (pending_put h.coherent ?_ name).trans ?_
  · intro r hr
    exact lt_of_stamped h hmax hr
  · split
    next hname => rw [hname]
    next => rfl

theorem Stamped.record (h : log.Stamped) (hmax : log.sequence ≠ Int64.maxValue)
    (hr : log.record m eventType values = .ok (n, log')) : log'.Stamped where
  coherent := by
    obtain ⟨-, rfl, rfl⟩ := record_ok hr
    exact Coherent.put h.coherent _ _
  le_sequence := by
    intro name r hmem
    rw [pending_record h hmax hr] at hmem
    obtain ⟨-, rfl, rfl⟩ := record_ok hr
    split at hmem
    next =>
      rcases List.mem_append.1 hmem with hmem | hmem
      · exact Int64.le_of_lt (lt_of_stamped h hmax hmem)
      · rw [List.mem_singleton.1 hmem]
        exact Int64.le_refl _
    next => exact Int64.le_of_lt (lt_of_stamped h hmax hmem)

theorem merged_record (h : log.Stamped) (hmax : log.sequence ≠ Int64.maxValue)
    {models : List LogModel} (hnd : (models.map (·.logTable)).Nodup) {k : Nat}
    (hk : models[k]? = some m) (hr : log.record m eventType values = .ok (n, log')) :
    log'.merged models = log.merged models ++ [(k, m.row n eventType values)] := by
  have htables : models.map (fun m => log'.pending m.logTable) =
      (models.map fun m => log.pending m.logTable).modify k (· ++ [m.row n eventType values]) := by
    refine List.ext_getElem? fun j => ?_
    rw [List.getElem?_modify, List.getElem?_map, List.getElem?_map]
    cases hj : models[j]? with
    | none => rfl
    | some m' =>
        have hiff : k = j ↔ m'.logTable = m.logTable := by
          constructor
          · rintro rfl
            cases hk.symm.trans hj
            rfl
          · intro he
            exact (eq_of_logTable_eq hnd hj hk he).symm
        simp only [Option.map_some, pending_record h hmax hr, hiff]
        split <;> rfl
  have htable : (models.map fun m => log.pending m.logTable)[k]? = some (log.pending m.logTable) := by
    rw [List.getElem?_map, hk, Option.map_some]
  refine (congrArg Merge.merged htables).trans
    (merged_modify_append (ascending_tables h.coherent models) htable ?_)
  rintro ⟨j, r⟩ hd
  obtain ⟨m', -, hr'⟩ := mem_merged.1 (Merge.mem_merged.2 hd)
  obtain ⟨-, rfl, -⟩ := record_ok hr
  exact lt_of_stamped h hmax hr'

end MemoryLog

end ChangeFeed
