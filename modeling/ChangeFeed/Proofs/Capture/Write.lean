import ChangeFeed.Proofs.Capture.Installed

namespace ChangeFeed

open Sql

namespace LogModel

/-- Asks for the leading ids of a row, as the watched table could do itself. -/
def requireLeading (m : LogModel) : Database.AfterRow := fun db t id row =>
  match m.leading.find? fun c => t.read id row c = .null with
  | some c => .error (.notNull t.name c)
  | none => .ok db

/-- A write to the watched table, by itself, changes so many rows, which all have their leading ids. -/
structure Admits (m : LogModel) (db : Database) (c : Change) (n : Nat) : Prop where
  table : sameName m.watchedTable c.table = true
  names : ∃ t, db.requireNames "" c = .ok t
  rows : ∃ db', db.applyChange m.requireLeading c = .ok (db', n)

theorem requireLeading_ok {m : LogModel} {db db' : Database} {t : Table} {id : Int64} {row : Row}
    (h : m.requireLeading db t id row = .ok db') :
    db' = db ∧ ∀ c ∈ m.leading, t.read id row c ≠ .null := by
  rw [requireLeading] at h
  cases hf : m.leading.find? fun c => t.read id row c = .null with
  | some c =>
      rw [hf] at h
      cases h
  | none =>
      rw [hf] at h
      cases h
      refine ⟨rfl, fun c hc => ?_⟩
      simpa using List.find?_eq_none.1 hf c hc

end LogModel

theorem Sql.Table.hasColumn_congr {t t' : Table} (h : t'.columns = t.columns) (name : String) :
    t'.hasColumn name = t.hasColumn name := by
  simp only [hasColumn, column?, h]

variable {models done : List LogModel} {m : LogModel} {db : Database} {v : Int64} {c : Change}
  {n : Nat}

section

variable (hs : Suited models) (hm : m ∈ models)
include hs hm

theorem Layout.setWatched (hl : Layout models db) {t t₁ : Table}
    (ht : db.table? m.watchedTable = some t) (hname : t₁.name = t.name)
    (hcolumns : t₁.columns = t.columns) : Layout models (db.setTable t₁) := by
  obtain ⟨-, hlog, honly⟩ := hs.foreign hm (hname ▸ hl.keyed _ _ ht)
  refine hl.setTable ?_ ?_
  · intro m' hm' hn p hp
    obtain rfl := honly m' hm' hn
    obtain ⟨t', ht', hcolumn⟩ := hl.watched m' hm
    obtain rfl := Option.some.inj (ht.symm.trans ht')
    rw [Table.hasColumn_congr hcolumns]
    exact hcolumn p hp
  · intro m' hm' hn
    exact absurd hn (hlog m' hm')

theorem table?_setWatched (hl : Layout models db) {t t₁ : Table}
    (ht : db.table? m.watchedTable = some t) (hname : t₁.name = t.name) :
    (db.setTable t₁).table? counterName = db.table? counterName ∧
      ∀ m' ∈ models, (db.setTable t₁).table? m'.logTable = db.table? m'.logTable := by
  obtain ⟨hcounter, hlog, -⟩ := hs.foreign hm (hname ▸ hl.keyed _ _ ht)
  refine ⟨?_, fun m' hm' => ?_⟩
  · rw [Database.table?_setTable, if_neg hcounter]
  · rw [Database.table?_setTable, if_neg (hlog m' hm')]

theorem Off.setWatched (h : Off models db) {t t₁ : Table} (ht : db.table? m.watchedTable = some t)
    (hname : t₁.name = t.name) (hcolumns : t₁.columns = t.columns) : Off models (db.setTable t₁) :=
  ⟨h.toLayout.setWatched hs hm ht hname hcolumns, h.triggers,
    (table?_setWatched hs hm h.toLayout ht hname).1.trans h.counter⟩

theorem On.setWatched (h : On models done db v) (hdone : done ⊆ models) {t t₁ : Table}
    (ht : db.table? m.watchedTable = some t) (hname : t₁.name = t.name)
    (hcolumns : t₁.columns = t.columns) : On models done (db.setTable t₁) v := by
  obtain ⟨hcounter, hlog⟩ := table?_setWatched hs hm h.toLayout ht hname
  refine ⟨h.toLayout.setWatched hs hm ht hname hcolumns, hcounter.trans h.counter, ?_, ?_⟩
  · intro m' hm' t' ht'
    exact h.below m' hm' t' ((hlog m' hm').symm.trans ht')
  · intro m' hm'
    rw [hlog m' (hdone hm')]
    exact h.armed m' hm'

omit hm in
theorem On.countUp (h : On models done db v) (hv : v < v + 1) :
    On models done (db.setTable (counterAt (v + 1))) (v + 1) ∧
      ∀ name, ¬ sameName name counterName = true →
        (db.setTable (counterAt (v + 1))).table? name = db.table? name := by
  refine ⟨h.setTable (Int64.le_of_lt hv) ?_ ?_ ?_, fun name hn => ?_⟩
  · rw [Database.table?_setTable, name_counterAt, if_pos (sameName_self _)]
  · exact fun m hm hn => absurd hn (hs.counter m hm).2
  · exact fun m hm hn => absurd hn (hs.counter m hm).1
  · rw [Database.table?_setTable, name_counterAt, if_neg hn]

theorem On.writeLog (h : On models models db v) (hfresh : ∀ n ∈ waiting db m, n < v) (e : EventType)
    {read : String → Value} (hread : ∀ c ∈ m.leading, read c ≠ .null) (levels : Nat)
    (active : List String) :
    ∃ log, log.name = m.logTable ∧ log.rows.keys = waiting db m ++ [v] ∧
      Database.applyWithTriggers levels active db
        (Database.logInsert (m.capture e) (.integer v) read) = .ok (db.setTable log, 1) ∧
      On models models (db.setTable log) v := by
  obtain ⟨log, ht⟩ := Option.isSome_iff_exists.1 (h.armed m hm).1
  have hwaiting := waiting_of_table ht
  have hmade := h.made m hm log ht
  have hfree : log.rows.contains v = false := by
    rw [Bool.eq_false_iff]
    intro hc
    have hmem := SortedMap.mem_keys.2 (show (log.rows.get? v).isSome from hc)
    exact Int64.lt_irrefl (hfresh v (hwaiting ▸ hmem))
  obtain ⟨cells, hinsert⟩ := LogModel.Made.insert hmade
    (LogModel.validate_of_validateNames (hs.valid m hm)) e hread hfree
  have hkeys : (log.rows.insert v cells).keys = waiting db m ++ [v] := by
    rw [hwaiting]
    refine SortedMap.keys_insert_of_lt cells fun n hn => ?_
    exact Std.compare_eq_lt.2 (hfresh n (hwaiting ▸ hn))
  have hwrite := Database.applyWithTriggers_quiet (c := .insert false m.logTable _) h.keyed
    (h.quiet_log hs hm .insert) (Database.applyChange_insert ht hinsert rfl false) levels active
  obtain ⟨hcounter, hwatched, honly⟩ := hs.own hm (h.keyed _ _ ht)
  refine ⟨{ log with rows := log.rows.insert v cells }, hmade.name, hkeys, ?_,
    h.setTable (Int64.le_refl v) ?_ ?_ ?_⟩
  · rw [LogModel.logInsert_capture]
    exact hwrite
  · rw [Database.table?_setTable, if_neg hcounter]
    exact h.counter
  · exact fun m' hm' hn => absurd hn (hwatched m' hm')
  · intro m' hm' hn
    obtain rfl := honly m' hm' hn
    refine ⟨⟨hmade.name, hmade.columns, hmade.distinct⟩, fun n hn => ?_⟩
    rw [hkeys] at hn
    rcases List.mem_append.1 hn with hn | hn
    · exact Int64.le_of_lt (hfresh n hn)
    · obtain rfl := List.mem_singleton.1 hn
      exact Int64.le_refl n

theorem On.capture (h : On models models db v) (hv : v ≠ Int64.maxValue) (e : EventType) {t : Table}
    {id : Int64} {row : Row} (hread : ∀ c ∈ m.leading, t.read id row c ≠ .null) (levels : Nat)
    (active : List String) :
    ∃ db', Database.capture (Database.applyWithTriggers levels active) (m.capture e) db t id row =
        .ok db' ∧ On models models db' (v + 1) ∧ waiting db' m = waiting db m ++ [v + 1] ∧
      (∀ m' ∈ models, m' ≠ m → waiting db' m' = waiting db m') ∧
      db'.table? m.watchedTable = db.table? m.watchedTable := by
  have hlt : v < v + 1 := by
    rw [Int64.lt_iff_toInt_lt, MemoryLog.toInt_add_one hv]
    omega
  have hcount := Database.applyWithTriggers_quiet (c := Database.countUp) h.keyed
    (h.quiet_counter hs .update) (Database.applyChange_countUp h.counter hv) levels active
  obtain ⟨h₁, htables⟩ := h.countUp hs hlt
  have hwaiting (m' : LogModel) (hm' : m' ∈ models) :
      waiting (db.setTable (counterAt (v + 1))) m' = waiting db m' := by
    rw [waiting, waiting, htables _ (hs.counter m' hm').1]
  obtain ⟨log, hname, hkeys, hwrite, h₂⟩ := h₁.writeLog hs hm
    (fun n hn => Int64.lt_of_le_of_lt (h.le_of_waiting hm (hwaiting m hm ▸ hn)) hlt) e hread levels
    active
  rw [hwaiting m hm] at hkeys
  refine ⟨_, ?_, h₂, ?_, fun m' hm' hne => ?_, ?_⟩
  · rw [Database.capture, hcount]
    simp only [bind, Except.bind, Database.counterValue_eq h₁.counter, hwrite]
    rfl
  · rw [← hkeys]
    apply waiting_of_table
    rw [Database.table?_setTable, hname, if_pos (sameName_self _)]
  · rw [← hwaiting m' hm', waiting, waiting, Database.table?_setTable, hname, if_neg]
    exact fun hn => hne (hs.eq_of_log hm' hm hn)
  · rw [Database.table?_setTable, hname, htables _ (hs.counter m hm).2,
      if_neg ((hs.own hm (sameName_self _)).2.1 m hm)]

theorem On.triggersOn (h : On models models db v) {name : String}
    (hn : sameName m.watchedTable name = true) (e : EventType) :
    db.triggersOn name e = [m.trigger e] := by
  refine filter_eq_singleton h.nodup ((h.armed m hm).2 e) fun g hg => ?_
  rw [Bool.and_eq_true, decide_eq_true_iff]
  constructor
  · rintro ⟨hwatched, he⟩
    obtain ⟨m', hm', e', rfl⟩ := h.known g hg
    obtain rfl := (hs.foreign hm hn).2.2 m' hm' hwatched
    rw [← he]
    rfl
  · rintro rfl
    exact ⟨hn, rfl⟩

theorem On.resolve (h : On models models db v) {t : Table} (ht : db.requireNames "" c = .ok t)
    (hn : sameName m.watchedTable c.table = true) (levels : Nat) :
    db.resolve (levels + 1) "" [] c = .ok () := by
  have hcount : db.resolve levels "main." [(m.trigger c.eventType).name] Database.countUp = .ok () :=
    Database.resolve_of_quiet (Database.requireNames_countUp h.counter "main.")
      (h.quiet_counter hs .update)
  obtain ⟨log, hlog⟩ := Option.isSome_iff_exists.1 (h.armed m hm).1
  have hmade := h.made m hm log hlog
  have hinsert : db.requireNames "main."
      (Database.logInsert (m.capture c.eventType) .null fun _ => .null) = .ok log := by
    rw [LogModel.logInsert_capture]
    apply Database.requireNames_insert hlog
    intro cell hcell
    have hname : cell.1 ∈ m.tableColumns.map (·.name) := by
      rw [← LogModel.names_written (LogModel.validate_of_validateNames (hs.valid m hm)) c.eventType .null
        fun _ => .null]
      exact List.mem_map_of_mem hcell
    obtain ⟨k, hk, he⟩ := List.mem_map.1 hname
    have hcolumn : logColumn k ∈ log.columns := by
      rw [hmade.columns]
      exact List.mem_map_of_mem hk
    rw [← he, ← logColumn_name]
    exact Table.hasColumn_of_mem hcolumn
  have hcopied (error : String → SqlError) :
      Database.requireColumns t error ((m.capture c.eventType).copied.map (·.2)) = .ok () := by
    apply Database.requireColumns_ok
    intro name hname
    obtain ⟨t', ht', hcolumns⟩ := h.watched m hm
    rw [Database.table?_congr hn, Database.table?_of_requireNames ht] at ht'
    obtain rfl := Option.some.inj ht'
    obtain ⟨_, hpair, rfl⟩ := List.mem_map.1 hname
    obtain ⟨p, hp, rfl⟩ := List.mem_map.1 hpair
    exact hcolumns p hp
  have hwritten : db.resolve levels "main." [(m.trigger c.eventType).name]
      (Database.logInsert (m.capture c.eventType) .null fun _ => .null) = .ok () :=
    Database.resolve_of_quiet hinsert (h.quiet_log hs hm .insert)
  rw [Database.resolve, ht, h.triggersOn hs hm hn]
  have hcapture : (m.trigger c.eventType).capture = m.capture c.eventType := rfl
  simp only [bind, Except.bind, List.forM_eq_forM, List.forM_cons, List.forM_nil, List.not_mem_nil,
    if_false, hcapture, hcount, hinsert, hcopied, hwritten]
  rfl

end

theorem Off.change (h : Off models db) (hs : Suited models) (hm : m ∈ models)
    (hc : m.Admits db c n) : ∃ db', db.change c = .ok (db', n) ∧ Off models db' ∧
      ∀ m' ∈ models, waiting db' m' = waiting db m' := by
  obtain ⟨t, ht⟩ := hc.names
  obtain ⟨p, hp⟩ := hc.rows
  let R (_ : Nat) (p d : Database) : Prop :=
    d = p ∧ Off models p ∧ ∀ m' ∈ models, waiting p m' = waiting db m'
  have hbeside : Database.Beside R c.table n m.requireLeading Database.nothing := by
    constructor
    · rintro k _ d ⟨rfl, -, -⟩
      rfl
    · rintro k _ d t t₁ t₂ id row _ ⟨rfl, hoff, hwaiting⟩ - ht hname hcolumns - hafter
      obtain ⟨rfl, -⟩ := LogModel.requireLeading_ok hafter
      rw [← Database.table?_congr hc.table] at ht
      refine ⟨_, rfl, rfl, hoff.setWatched hs hm ht hname hcolumns, fun m' hm' => ?_⟩
      rw [waiting, (table?_setWatched hs hm hoff.toLayout ht hname).2 m' hm']
      exact hwaiting m' hm'
  obtain ⟨d', hd', rfl, hoff, hwaiting⟩ := hbeside.applyChange ⟨rfl, h, fun _ _ => rfl⟩ hp
  refine ⟨d', Database.change_quiet h.keyed ht ?_ hd', hoff, hwaiting⟩
  rw [Database.triggersOn, h.triggers]
  rfl

/-- So many rows were captured since `db`, when the counter was at `v`. -/
structure Captured (models : List LogModel) (m : LogModel) (db : Database) (v : Int64) (k : Nat)
    (d : Database) : Prop where
  on : ∃ w, On models models d w ∧ w.toInt = v.toInt + k
  fresh : ∃ ids, waiting d m = waiting db m ++ ids ∧ ids.length = k ∧ ∀ i ∈ ids, v < i
  others : ∀ m' ∈ models, m' ≠ m → waiting d m' = waiting db m'

theorem Captured.start (h : On models models db v) : Captured models m db v 0 db where
  on := ⟨v, h, (Int.add_zero _).symm⟩
  fresh := ⟨[], (List.append_nil _).symm, rfl, nofun⟩
  others := fun _ _ _ => rfl

theorem Captured.step (hs : Suited models) (hm : m ∈ models) {d : Database} {k : Nat}
    (h : Captured models m db v k d) (hroom : v.toInt + (k + 1 : Nat) ≤ Int64.maxValue.toInt)
    {t t₁ t₂ : Table} {id : Int64} {row : Row} (ht : d.table? m.watchedTable = some t)
    (hname : t₁.name = t.name) (hcolumns : t₁.columns = t.columns)
    (hread : ∀ c ∈ m.leading, t₂.read id row c ≠ .null) (e : EventType) (levels : Nat)
    (active : List String) :
    ∃ d', Database.capture (Database.applyWithTriggers levels active) (m.capture e) (d.setTable t₁) t₂
        id row = .ok d' ∧ Captured models m db v (k + 1) d' ∧
      d'.table? m.watchedTable = (d.setTable t₁).table? m.watchedTable := by
  obtain ⟨w, hon, hw⟩ := h.on
  obtain ⟨ids, hids, hlength, hfresh⟩ := h.fresh
  have hmax : w ≠ Int64.maxValue := by
    rintro rfl
    omega
  have hon₁ := hon.setWatched hs hm (List.Subset.refl models) ht hname hcolumns
  have hwaiting (m' : LogModel) (hm' : m' ∈ models) : waiting (d.setTable t₁) m' = waiting d m' := by
    rw [waiting, waiting, (table?_setWatched hs hm hon.toLayout ht hname).2 m' hm']
  obtain ⟨d', hcapture, hon', hnew, hothers, htable⟩ := hon₁.capture hs hm hmax e hread levels active
  have hnext := MemoryLog.toInt_add_one hmax
  refine ⟨d', hcapture, ⟨⟨w + 1, hon', by omega⟩, ⟨ids ++ [w + 1], ?_, ?_, ?_⟩, ?_⟩, htable⟩
  · rw [hnew, hwaiting m hm, hids, List.append_assoc]
  · rw [List.length_append, hlength]
    rfl
  · intro i hi
    rcases List.mem_append.1 hi with hi | hi
    · exact hfresh i hi
    · obtain rfl := List.mem_singleton.1 hi
      rw [Int64.lt_iff_toInt_lt]
      omega
  · intro m' hm' hne
    rw [hothers m' hm' hne, hwaiting m' hm', h.others m' hm' hne]

/-- A write that can be carried out by itself can be carried out with capture, and all rows that it
changes are captured. -/
theorem On.change (h : On models models db v) (hs : Suited models) (hm : m ∈ models)
    (hc : m.Admits db c n) (hroom : v.toInt + n ≤ Int64.maxValue.toInt) :
    ∃ db', db.change c = .ok (db', n) ∧ Captured models m db v n db' := by
  obtain ⟨t, ht⟩ := hc.names
  obtain ⟨p, hp⟩ := hc.rows
  obtain ⟨levels, hlevels⟩ : ∃ levels, db.triggers.length = levels + 1 :=
    Nat.exists_eq_succ_of_ne_zero fun hzero => by
      have hmem := (h.armed m hm).2 .insert
      rw [List.length_eq_zero_iff.1 hzero] at hmem
      cases hmem
  -- Row by row, the database with capture has the same watched table as the one without.
  let R (k : Nat) (p d : Database) : Prop :=
    Captured models m db v k d ∧ d.table? m.watchedTable = p.table? m.watchedTable
  have hbeside : Database.Beside R c.table n m.requireLeading fun db t id row =>
      (db.triggersOn t.name c.eventType).foldlM (fun db g =>
        if g.name ∈ [] then .ok db
        else Database.capture (Database.applyWithTriggers levels (g.name :: [])) g.capture db t id row)
        db := by
    constructor
    · rintro k p d ⟨-, htable⟩
      rw [← Database.table?_congr hc.table, ← Database.table?_congr hc.table, htable]
    · rintro k p d t t₁ t₂ id row _ ⟨hcaptured, htable⟩ hk ht hname hcolumns hname₂ hafter
      obtain ⟨rfl, hread⟩ := LogModel.requireLeading_ok hafter
      rw [← Database.table?_congr hc.table, ← htable] at ht
      obtain ⟨d', hd', hcaptured', htable'⟩ := hcaptured.step hs hm (by omega) ht hname hcolumns hread
        c.eventType levels [(m.trigger c.eventType).name]
      obtain ⟨w, hon, -⟩ := hcaptured.on
      have hon₁ := hon.setWatched hs hm (List.Subset.refl models) ht hname hcolumns
      have hsame : sameName m.watchedTable t₂.name = true := by
        rw [hname₂]
        exact hon.keyed _ _ ht
      refine ⟨d', ?_, hcaptured', ?_⟩
      · rw [hon₁.triggersOn hs hm hsame, List.foldlM_cons, if_neg List.not_mem_nil]
        exact bind_eq_ok.2 ⟨d', hd', rfl⟩
      · rw [htable', Database.table?_setTable, Database.table?_setTable, htable]
  obtain ⟨d', hd', hcaptured, -⟩ := hbeside.applyChange ⟨.start h, rfl⟩ hp
  refine ⟨d', ?_, hcaptured⟩
  rw [Database.change, hlevels, h.resolve hs hm ht hc.table]
  exact hd'

end ChangeFeed
