import ChangeFeed.Proofs.Capture.Install
import ChangeFeed.Proofs.Capture.Name
import ChangeFeed.Proofs.Capture.Row
import ChangeFeed.Proofs.Sql.Ddl

namespace ChangeFeed

open Sql

namespace LogModel

def trigger (m : LogModel) (e : EventType) : CaptureTrigger :=
  ⟨triggerName m.watchedTable e, m.watchedTable, m.capture e⟩

def arming (strategy : InstallStrategy) (m : LogModel) (e : EventType) : List Ddl :=
  (if strategy = .dropCreate then [.dropTrigger (triggerName m.watchedTable e) m.watchedTable] else []) ++
    [.createTrigger (m.trigger e)]

def disarming (m : LogModel) (e : EventType) : Ddl :=
  .dropTrigger (triggerName m.watchedTable e) m.watchedTable

end LogModel

/-- Models that can be installed beside each other. -/
structure Suited (models : List LogModel) : Prop where
  valid : ∀ m ∈ models, m.validateNames = .ok ()
  watched : (models.map fun m => foldCase m.watchedTable).Nodup
  logs : (models.map fun m => foldCase m.logTable).Nodup
  /-- No log table is watched. -/
  apart : ∀ m ∈ models, ∀ m' ∈ models, ¬ sameName m.logTable m'.watchedTable = true
  /-- The counter is a table of its own. -/
  counter : ∀ m ∈ models, ¬ sameName m.logTable counterName = true ∧
    ¬ sameName m.watchedTable counterName = true

namespace Capture

variable {models : List LogModel} {strategy : InstallStrategy}

theorem install_eq (h : ∀ m ∈ models, m.validateNames = .ok ()) (hs : strategy ≠ .dontCreate) :
    install .sqlite models strategy = .ok ([.createCounter, .seedCounter] ++ models.flatMap fun m =>
      .createLogTable m.logTable m.tableColumns :: EventType.all.flatMap (m.arming strategy)) :=
  install_ok h hs

theorem uninstall_eq (h : ∀ m ∈ models, m.validateNames = .ok ()) :
    uninstall .sqlite models =
      .ok ((models.flatMap fun m => EventType.all.map m.disarming) ++ [.dropCounter]) :=
  uninstall_ok h

end Capture

namespace SqlLog

variable {db db' : Database}

theorem execute_cons {d : Ddl} {ds : List Ddl} :
    execute db ((d :: ds).map statementOf) = .ok db' ↔
      ∃ db₁, db.run d = .ok db₁ ∧ execute db₁ (ds.map statementOf) = .ok db' := by
  rw [List.map_cons, statementOf, execute]
  cases db.run d with
  | error e => exact ⟨nofun, nofun⟩
  | ok db₁ => exact ⟨fun h => ⟨db₁, rfl, h⟩, by rintro ⟨_, ⟨⟩, h⟩; exact h⟩

theorem execute_inv {I : List Ddl → Database → Prop}
    (hstep : ∀ d ds db db', I (d :: ds) db → db.run d = .ok db' → I ds db') {ds : List Ddl}
    (hI : I ds db) (h : execute db (ds.map statementOf) = .ok db') : I [] db' := by
  induction ds generalizing db with
  | nil =>
      cases h
      exact hI
  | cons d ds ih =>
      obtain ⟨db₁, hr, h⟩ := execute_cons.1 h
      exact ih (hstep d ds db db₁ hI hr) h

theorem execute_append {as bs : List Ddl} (h : execute db ((as ++ bs).map statementOf) = .ok db') :
    ∃ d, execute db (as.map statementOf) = .ok d ∧ execute d (bs.map statementOf) = .ok db' := by
  induction as generalizing db with
  | nil => exact ⟨db, rfl, h⟩
  | cons a as ih =>
      obtain ⟨db₁, hr, h⟩ := execute_cons.1 h
      obtain ⟨d, hd, hd'⟩ := ih h
      exact ⟨d, execute_cons.2 ⟨db₁, hr, hd⟩, hd'⟩

theorem execute_singleton {d : Ddl} (h : execute db ([d].map statementOf) = .ok db') :
    db.run d = .ok db' := by
  obtain ⟨db₁, hr, h⟩ := execute_cons.1 h
  cases h
  exact hr

end SqlLog

namespace Suited

variable {models : List LogModel} {m m' : LogModel} (hs : Suited models)
include hs

theorem eq_of_watched (hm : m ∈ models) (hm' : m' ∈ models)
    (h : sameName m.watchedTable m'.watchedTable = true) : m = m' :=
  eq_of_key hs.watched hm hm' (sameName_iff.1 h)

theorem eq_of_log (hm : m ∈ models) (hm' : m' ∈ models)
    (h : sameName m.logTable m'.logTable = true) : m = m' :=
  eq_of_key hs.logs hm hm' (sameName_iff.1 h)

theorem eq_of_trigger (hm : m ∈ models) (hm' : m' ∈ models) {e e' : EventType}
    (h : sameName (m.trigger e).name (m'.trigger e').name = true) : m = m' ∧ e = e' := by
  obtain ⟨hw, he⟩ := triggerName_inj (LogModel.valid_watchedTable (hs.valid m hm))
    (LogModel.valid_watchedTable (hs.valid m' hm')) h
  exact ⟨hs.eq_of_watched hm hm' hw, he⟩

theorem own (hm : m ∈ models) {name : String} (h : sameName m.logTable name = true) :
    ¬ sameName counterName name = true ∧ (∀ m' ∈ models, ¬ sameName m'.watchedTable name = true) ∧
      ∀ m' ∈ models, sameName m'.logTable name = true → m' = m := by
  rw [sameName_iff] at h
  refine ⟨fun hn => (hs.counter m hm).1 ?_, fun m' hm' hn => hs.apart m hm m' hm' ?_,
    fun m' hm' hn => hs.eq_of_log hm' hm ?_⟩
  all_goals
    rw [sameName_iff] at hn ⊢
    rw [hn, h]

theorem foreign (hm : m ∈ models) {name : String} (h : sameName m.watchedTable name = true) :
    ¬ sameName counterName name = true ∧ (∀ m' ∈ models, ¬ sameName m'.logTable name = true) ∧
      ∀ m' ∈ models, sameName m'.watchedTable name = true → m' = m := by
  rw [sameName_iff] at h
  refine ⟨fun hn => (hs.counter m hm).2 ?_, fun m' hm' hn => hs.apart m' hm' m hm ?_,
    fun m' hm' hn => hs.eq_of_watched hm' hm ?_⟩
  all_goals
    rw [sameName_iff] at hn ⊢
    rw [hn, h]

end Suited

/-- What holds whether capture is installed or not. Log tables are as their statements make them, and
there are no other triggers than those of the models. -/
structure Layout (models : List LogModel) (db : Database) : Prop where
  keyed : db.Keyed
  watched : ∀ m ∈ models, ∃ t, db.table? m.watchedTable = some t ∧
    ∀ p ∈ m.columnPairs, t.hasColumn p.watched = true
  made : ∀ m ∈ models, ∀ t, db.table? m.logTable = some t → m.Made t
  known : ∀ g ∈ db.triggers, ∃ m ∈ models, ∃ e, g = m.trigger e
  nodup : db.triggers.Nodup

/-- Capture is not installed. Log tables may be there, with rows in them. -/
structure Off (models : List LogModel) (db : Database) : Prop extends Layout models db where
  triggers : db.triggers = []
  counter : db.table? counterName = none

/-- The counter has reached a value that no waiting row is above, and the models that are `done`
capture. -/
structure On (models done : List LogModel) (db : Database) (v : Int64) : Prop
    extends Layout models db where
  counter : db.table? counterName = some (counterAt v)
  below : ∀ m ∈ models, ∀ t, db.table? m.logTable = some t → ∀ n ∈ t.rows.keys, n ≤ v
  armed : ∀ m ∈ done, (db.table? m.logTable).isSome = true ∧ ∀ e, m.trigger e ∈ db.triggers

namespace Layout

variable {models : List LogModel} {m : LogModel} {db db' : Database} (h : Layout models db)
include h

theorem quiet {name : String} (hn : ∀ m ∈ models, ¬ sameName m.watchedTable name = true)
    (e : EventType) : db.triggersOn name e = [] := by
  rw [Database.triggersOn, List.filter_eq_nil_iff]
  intro g hg
  obtain ⟨m, hm, e', rfl⟩ := h.known g hg
  rw [Bool.and_eq_true]
  exact fun he => hn m hm he.1

theorem quiet_counter (hs : Suited models) (e : EventType) : db.triggersOn counterName e = [] :=
  h.quiet (fun m hm => (hs.counter m hm).2) e

theorem quiet_log (hs : Suited models) (hm : m ∈ models) (e : EventType) :
    db.triggersOn m.logTable e = [] :=
  h.quiet (hs.own hm (sameName_self _)).2.1 e

theorem setTable {t : Table}
    (hwatched : ∀ m ∈ models, sameName m.watchedTable t.name = true →
      ∀ p ∈ m.columnPairs, t.hasColumn p.watched = true)
    (hmade : ∀ m ∈ models, sameName m.logTable t.name = true → m.Made t) :
    Layout models (db.setTable t) where
  keyed := h.keyed.setTable t
  watched := by
    intro m hm
    rw [Database.table?_setTable]
    by_cases hn : sameName m.watchedTable t.name = true
    · exact ⟨t, if_pos hn, hwatched m hm hn⟩
    · rw [if_neg hn]
      exact h.watched m hm
  made := by
    intro m hm t' ht'
    rw [Database.table?_setTable] at ht'
    by_cases hn : sameName m.logTable t.name = true
    · rw [if_pos hn] at ht'
      cases ht'
      exact hmade m hm hn
    · rw [if_neg hn] at ht'
      exact h.made m hm t' ht'
  known := h.known
  nodup := h.nodup

theorem setTriggers {triggers : List CaptureTrigger}
    (hknown : ∀ g ∈ triggers, ∃ m ∈ models, ∃ e, g = m.trigger e) (hnodup : triggers.Nodup) :
    Layout models { db with triggers } where
  keyed := h.keyed
  watched := h.watched
  made := h.made
  known := hknown
  nodup := hnodup

variable (hs : Suited models) (hm : m ∈ models) {e : EventType}
include hs hm

theorem drop (hrun : db.run (m.disarming e) = .ok db') :
    Layout models db' ∧ db'.tables = db.tables ∧
      ∀ g, g ∈ db'.triggers ↔ g ∈ db.triggers ∧ g ≠ m.trigger e := by
  obtain rfl := Database.run_dropTrigger hrun
  refine ⟨h.setTriggers (fun g hg => h.known g (List.mem_filter.1 hg).1) (h.nodup.filter _), rfl, ?_⟩
  intro g
  simp only [List.mem_filter, Bool.not_eq_true']
  refine and_congr_right fun hg => ?_
  obtain ⟨m', hm', e', rfl⟩ := h.known g hg
  constructor
  · intro hname he
    rw [he] at hname
    exact Bool.false_ne_true (hname.symm.trans (sameName_self _))
  · intro hne
    rw [Bool.eq_false_iff]
    intro hname
    obtain ⟨rfl, rfl⟩ := hs.eq_of_trigger hm' hm hname
    exact hne rfl

theorem create (hrun : db.run (.createTrigger (m.trigger e)) = .ok db') :
    Layout models db' ∧ db'.tables = db.tables ∧
      ∀ g, g ∈ db'.triggers ↔ g = m.trigger e ∨ g ∈ db.triggers := by
  obtain ⟨⟨k, hk, hname⟩, rfl⟩ | ⟨hnone, rfl⟩ := Database.run_createTrigger hrun
  · obtain ⟨m', hm', e', rfl⟩ := h.known k hk
    obtain ⟨rfl, rfl⟩ := hs.eq_of_trigger hm' hm hname
    refine ⟨h, rfl, fun g => (or_iff_right_of_imp ?_).symm⟩
    rintro rfl
    exact hk
  · have hfresh : m.trigger e ∉ db.triggers := fun hmem => hnone _ hmem (sameName_self _)
    refine ⟨h.setTriggers ?_ (List.nodup_cons.2 ⟨hfresh, h.nodup⟩), rfl, fun g => List.mem_cons⟩
    exact List.forall_mem_cons.2 ⟨⟨m, hm, e, rfl⟩, h.known⟩

theorem arm {strategy : InstallStrategy}
    (hrun : SqlLog.execute db ((m.arming strategy e).map SqlLog.statementOf) = .ok db') :
    Layout models db' ∧ db'.tables = db.tables ∧
      ∀ g, g ∈ db'.triggers ↔ g = m.trigger e ∨ g ∈ db.triggers := by
  obtain ⟨d, hd, hcreate⟩ := SqlLog.execute_append hrun
  have hcreate := SqlLog.execute_singleton hcreate
  by_cases hstrategy : strategy = .dropCreate
  · rw [if_pos hstrategy] at hd
    obtain ⟨hl, htables, hmem⟩ := h.drop hs hm (SqlLog.execute_singleton hd)
    obtain ⟨hl', htables', hmem'⟩ := hl.create hs hm hcreate
    refine ⟨hl', htables'.trans htables, fun g => ?_⟩
    rw [hmem', hmem]
    by_cases hg : g = m.trigger e
    · simp [hg]
    · simp [hg]
  · rw [if_neg hstrategy] at hd
    cases hd
    exact h.create hs hm hcreate

theorem armAll {strategy : InstallStrategy} (es : List EventType)
    (hrun : SqlLog.execute db ((es.flatMap (m.arming strategy)).map SqlLog.statementOf) = .ok db') :
    Layout models db' ∧ db'.tables = db.tables ∧
      ∀ g, g ∈ db'.triggers ↔ (∃ e ∈ es, g = m.trigger e) ∨ g ∈ db.triggers := by
  induction es generalizing db with
  | nil =>
      cases hrun
      exact ⟨h, rfl, by simp⟩
  | cons e es ih =>
      rw [List.flatMap_cons] at hrun
      obtain ⟨d, hd, hrun⟩ := SqlLog.execute_append hrun
      obtain ⟨hl, htables, hmem⟩ := h.arm hs hm hd
      obtain ⟨hl', htables', hmem'⟩ := ih hl hrun
      refine ⟨hl', htables'.trans htables, fun g => ?_⟩
      simp only [hmem', hmem, List.mem_cons, exists_eq_or_imp]
      constructor
      · rintro (h | h | h)
        · exact .inl (.inr h)
        · exact .inl (.inl h)
        · exact .inr h
      · rintro ((h | h) | h)
        · exact .inr (.inl h)
        · exact .inl h
        · exact .inr (.inr h)

end Layout

namespace On

variable {models done : List LogModel} {m : LogModel} {db db' : Database} {v w : Int64}

theorem mono (h : On models done db v) {fewer : List LogModel} (hsub : fewer ⊆ done) :
    On models fewer db v :=
  { h with armed := fun m hm => h.armed m (hsub hm) }

theorem setTable (h : On models done db v) {t : Table} (hle : v ≤ w)
    (hcounter : (db.setTable t).table? counterName = some (counterAt w))
    (hwatched : ∀ m ∈ models, sameName m.watchedTable t.name = true →
      ∀ p ∈ m.columnPairs, t.hasColumn p.watched = true)
    (hlog : ∀ m ∈ models, sameName m.logTable t.name = true →
      m.Made t ∧ ∀ n ∈ t.rows.keys, n ≤ w) : On models done (db.setTable t) w where
  toLayout := h.toLayout.setTable hwatched fun m hm hn => (hlog m hm hn).1
  counter := hcounter
  below := by
    intro m hm t' ht' n hmem
    rw [Database.table?_setTable] at ht'
    by_cases hn : sameName m.logTable t.name = true
    · rw [if_pos hn] at ht'
      cases ht'
      exact (hlog m hm hn).2 n hmem
    · rw [if_neg hn] at ht'
      exact Int64.le_trans (h.below m hm t' ht' n hmem) hle
  armed := by
    intro m hm
    obtain ⟨hsome, htriggers⟩ := h.armed m hm
    refine ⟨?_, htriggers⟩
    rw [Database.table?_setTable]
    split
    next => rfl
    next => exact hsome

theorem installModel (h : On models done db v) (hs : Suited models) (hm : m ∈ models)
    {strategy : InstallStrategy}
    (hrun : SqlLog.execute db ((.createLogTable m.logTable m.tableColumns ::
      EventType.all.flatMap (m.arming strategy)).map SqlLog.statementOf) = .ok db') :
    On models (m :: done) db' v := by
  obtain ⟨d, hd, hrun⟩ := SqlLog.execute_cons.1 hrun
  have hlog : On models done d v ∧ (d.table? m.logTable).isSome = true := by
    obtain ⟨hsome, rfl⟩ | ⟨hnone, hdistinct, rfl⟩ :=
      Database.run_createLogTable hd
    · exact ⟨h, hsome⟩
    · have hname : (logTable m.logTable m.tableColumns).name = m.logTable := rfl
      obtain ⟨hcounter, hwatched, honly⟩ := hs.own hm (sameName_self m.logTable)
      refine ⟨h.setTable (Int64.le_refl v) ?_ ?_ ?_, ?_⟩
      · rw [Database.table?_setTable, hname, if_neg hcounter]
        exact h.counter
      · exact fun m' hm' hn => absurd hn (hwatched m' hm')
      · intro m' hm' hn
        obtain rfl := honly m' hm' hn
        exact ⟨⟨rfl, rfl, hdistinct⟩, nofun⟩
      · rw [Database.table?_setTable, hname, if_pos (sameName_self _)]
        rfl
  obtain ⟨hon, hsome⟩ := hlog
  obtain ⟨hl, htables, hmem⟩ := hon.toLayout.armAll hs hm EventType.all hrun
  have htable (name : String) : db'.table? name = d.table? name := by
    rw [Database.table?, Database.table?, htables]
  refine ⟨hl, ?_, ?_, List.forall_mem_cons.2 ⟨⟨?_, ?_⟩, ?_⟩⟩
  · rw [htable]
    exact hon.counter
  · intro m' hm' t ht
    rw [htable] at ht
    exact hon.below m' hm' t ht
  · rw [htable]
    exact hsome
  · exact fun e => (hmem _).2 (.inl ⟨e, e.mem_all, rfl⟩)
  · intro m' hm'
    rw [htable]
    exact ⟨(hon.armed m' hm').1, fun e => (hmem _).2 (.inr ((hon.armed m' hm').2 e))⟩

theorem installModels (h : On models done db v) (hs : Suited models) {strategy : InstallStrategy}
    (ms : List LogModel) (hms : ∀ m ∈ ms, m ∈ models)
    (hrun : SqlLog.execute db ((ms.flatMap fun m => .createLogTable m.logTable m.tableColumns ::
      EventType.all.flatMap (m.arming strategy)).map SqlLog.statementOf) = .ok db') :
    On models (ms ++ done) db' v := by
  induction ms generalizing db done with
  | nil =>
      cases hrun
      exact h
  | cons m ms ih =>
      obtain ⟨hm, hms⟩ := List.forall_mem_cons.1 hms
      rw [List.flatMap_cons] at hrun
      obtain ⟨d, hd, hrun⟩ := SqlLog.execute_append hrun
      refine (ih (h.installModel hs hm hd) hms hrun).mono ?_
      intro m' hm'
      simp only [List.cons_append, List.mem_cons, List.mem_append] at hm' ⊢
      exact or_left_comm.1 hm'

end On

def waiting (db : Database) (m : LogModel) : List Int64 :=
  ((db.table? m.logTable).map (·.rows.keys)).getD []

section

variable {models : List LogModel} {m : LogModel} {db db' : Database} {v : Int64}

theorem waiting_of_table {t : Table} (h : db.table? m.logTable = some t) :
    waiting db m = t.rows.keys := by rw [waiting, h]; rfl

theorem mem_waiting {n : Int64} :
    n ∈ waiting db m ↔ ∃ t, db.table? m.logTable = some t ∧ n ∈ t.rows.keys := by
  rw [waiting]
  cases db.table? m.logTable <;> simp

theorem On.le_of_waiting (h : On models models db v) (hm : m ∈ models) {n : Int64}
    (hn : n ∈ waiting db m) : n ≤ v := by
  obtain ⟨t, ht, hn⟩ := mem_waiting.1 hn
  exact h.below m hm t ht n hn

variable (hs : Suited models) {strategy : InstallStrategy}
include hs

theorem install_ok (hstrategy : strategy ≠ .dontCreate)
    (hrun : SqlLog.install db models strategy = .ok db') :
    ∃ d₁ d₂, db.run .createCounter = .ok d₁ ∧ d₁.run .seedCounter = .ok d₂ ∧
      SqlLog.execute d₂ ((models.flatMap fun m => .createLogTable m.logTable m.tableColumns ::
        EventType.all.flatMap (m.arming strategy)).map SqlLog.statementOf) = .ok db' := by
  rw [SqlLog.install, Capture.install_eq hs.valid hstrategy] at hrun
  obtain ⟨d₁, hcreate, hrun⟩ := SqlLog.execute_cons.1 hrun
  obtain ⟨d₂, hseed, hmodels⟩ := SqlLog.execute_cons.1 hrun
  exact ⟨d₁, d₂, hcreate, hseed, hmodels⟩

theorem Off.install (h : Off models db) (hempty : ∀ m ∈ models, waiting db m = [])
    (hstrategy : strategy ≠ .dontCreate) (hrun : SqlLog.install db models strategy = .ok db') :
    On models models db' 0 := by
  obtain ⟨d₁, d₂, hcreate, hseed, hmodels⟩ := install_ok hs hstrategy hrun
  obtain rfl := (Database.run_setup h.keyed (h.quiet_counter hs .insert) hcreate hseed).1 h.counter
  have hname (m : LogModel) (hm : m ∈ models) :
      ¬ sameName m.logTable (counterAt 0).name = true ∧
        ¬ sameName m.watchedTable (counterAt 0).name = true := hs.counter m hm
  have hstart : On models [] (db.setTable (counterAt 0)) 0 := by
    refine ⟨h.toLayout.setTable ?_ ?_, ?_, ?_, nofun⟩
    · exact fun m hm hn => absurd hn (hname m hm).2
    · exact fun m hm hn => absurd hn (hname m hm).1
    · rw [Database.table?_setTable, name_counterAt, if_pos (sameName_self _)]
    · intro m hm t ht n hn
      rw [Database.table?_setTable, if_neg (hname m hm).1] at ht
      have hmem : n ∈ waiting db m := mem_waiting.2 ⟨t, ht, hn⟩
      rw [hempty m hm] at hmem
      cases hmem
  exact (hstart.installModels hs models (fun _ hm => hm) hmodels).mono (List.subset_append_left ..)

theorem On.install (h : On models models db v) (hrun : SqlLog.install db models strategy = .ok db') :
    On models models db' v := by
  by_cases hstrategy : strategy = .dontCreate
  · subst hstrategy
    cases hrun
    exact h
  · obtain ⟨d₁, d₂, hcreate, hseed, hmodels⟩ := install_ok hs hstrategy hrun
    obtain rfl :=
      (Database.run_setup h.keyed (h.quiet_counter hs .insert) hcreate hseed).2 v h.counter
    exact (h.installModels hs models (fun _ hm => hm) hmodels).mono (List.subset_append_left ..)

theorem Layout.disarmAll (h : Layout models db)
    (hrun : SqlLog.execute db ((models.flatMap fun m => EventType.all.map m.disarming).map
      SqlLog.statementOf) = .ok db') : Layout models db' ∧ db'.triggers = [] := by
  -- Every trigger that is there has its statement among those that are still to come.
  let I (ds : List Ddl) (db : Database) : Prop := Layout models db ∧
    (∀ d ∈ ds, ∃ m ∈ models, ∃ e, d = m.disarming e) ∧
    ∀ g ∈ db.triggers, ∃ m ∈ models, ∃ e, g = m.trigger e ∧ m.disarming e ∈ ds
  have hI : I [] db' := by
    refine SqlLog.execute_inv (I := I) ?_ ⟨h, ?_, ?_⟩ hrun
    · rintro d ds db db' ⟨hl, hall, hrest⟩ hrun
      obtain ⟨⟨m, hm, e, rfl⟩, hall'⟩ := List.forall_mem_cons.1 hall
      obtain ⟨hl', -, hmem⟩ := hl.drop hs hm hrun
      refine ⟨hl', hall', fun g hg => ?_⟩
      obtain ⟨hg, hne⟩ := (hmem g).1 hg
      obtain ⟨m', hm', e', rfl, hd⟩ := hrest g hg
      refine ⟨m', hm', e', rfl, (List.mem_cons.1 hd).resolve_left fun he => hne ?_⟩
      have hname : triggerName m'.watchedTable e' = triggerName m.watchedTable e := by injection he
      have hsame : sameName (m'.trigger e').name (m.trigger e).name = true := by
        rw [sameName_iff]
        exact congrArg foldCase hname
      obtain ⟨rfl, rfl⟩ := hs.eq_of_trigger hm' hm hsame
      rfl
    · intro d hd
      obtain ⟨m, hm, hd⟩ := List.mem_flatMap.1 hd
      obtain ⟨e, -, rfl⟩ := List.mem_map.1 hd
      exact ⟨m, hm, e, rfl⟩
    · intro g hg
      obtain ⟨m, hm, e, rfl⟩ := h.known g hg
      exact ⟨m, hm, e, rfl, List.mem_flatMap.2 ⟨m, hm, List.mem_map.2 ⟨e, e.mem_all, rfl⟩⟩⟩
  obtain ⟨hl, -, hnone⟩ := hI
  refine ⟨hl, List.eq_nil_iff_forall_not_mem.2 fun g hg => ?_⟩
  obtain ⟨_, _, _, _, hmem⟩ := hnone g hg
  cases hmem

theorem Layout.uninstall (h : Layout models db) (hrun : SqlLog.uninstall db models = .ok db') :
    Off models db' := by
  rw [SqlLog.uninstall, Capture.uninstall_eq hs.valid] at hrun
  obtain ⟨d, hd, hdrop⟩ := SqlLog.execute_append hrun
  obtain ⟨hl, hempty⟩ := h.disarmAll hs hd
  obtain ⟨hcounter, htables, htriggers⟩ := Database.run_dropCounter (SqlLog.execute_singleton hdrop)
  have hempty' : db'.triggers = [] := by
    refine List.eq_nil_iff_forall_not_mem.2 fun g hg => ?_
    have := htriggers g hg
    rw [hempty] at this
    cases this
  have hlog (m : LogModel) (hm : m ∈ models) : db'.table? m.logTable = d.table? m.logTable :=
    htables _ (Bool.eq_false_iff.2 (hs.counter m hm).1)
  have hwatched (m : LogModel) (hm : m ∈ models) :
      db'.table? m.watchedTable = d.table? m.watchedTable :=
    htables _ (Bool.eq_false_iff.2 (hs.counter m hm).2)
  refine ⟨⟨?_, ?_, ?_, ?_, ?_⟩, hempty', hcounter⟩
  · intro name t ht
    cases hn : sameName name counterName with
    | true =>
        rw [Database.table?_congr hn, hcounter] at ht
        cases ht
    | false =>
        rw [htables name hn] at ht
        exact hl.keyed name t ht
  · intro m hm
    rw [hwatched m hm]
    exact hl.watched m hm
  · intro m hm t ht
    rw [hlog m hm] at ht
    exact hl.made m hm t ht
  · rw [hempty']
    exact nofun
  · rw [hempty']
    exact List.nodup_nil

end

end ChangeFeed
