import ChangeFeed.Proofs.Capture.Effect
import ChangeFeed.Proofs.Capture.Install
import Mathlib.Data.List.Forall2
import Mathlib.Data.List.Induction

namespace ChangeFeed

namespace Effect

def createdTrigger? : Effect → Option DbObject
  | create _ (.trigger name table) => some (.trigger name table)
  | _ => none

def droppedTrigger? : Effect → Option DbObject
  | drop (.trigger name table) => some (.trigger name table)
  | _ => none

def createdFunction? : Effect → Option DbObject
  | create _ (.function name) => some (.function name)
  | _ => none

def droppedFunction? : Effect → Option DbObject
  | drop (.function name) => some (.function name)
  | _ => none

/-- Carries a statement out where the given objects exist, unless it fails on one of them. Which names
are those of one object is up to the database. -/
def run (same : DbObject → DbObject → Bool) (objects : List DbObject) : Effect → Option (List DbObject)
  | create guarded o =>
    if objects.any (same o) then (if guarded then some objects else none) else some (o :: objects)
  | seed _ => some objects
  | drop o => some (objects.filter (!same o ·))

end Effect

/-- Creations that mind whether the object exists come directly after the object is dropped. -/
def Rerunnable (effects : List Effect) : Prop :=
  ∀ before o later, effects = before ++ .create false o :: later → before.getLast? = some (.drop o)

def counterObject (d : Dialect) : DbObject :=
  if d = .postgres then .sequence counterName else .table counterName

def MakesLogTable (d : Dialect) (m : LogModel) (effects : List Effect) : Prop :=
  ∃ later, effects = .create true (.table m.logTable) :: later ∧
    later.filterMap Effect.createdTrigger? =
      EventType.all.map fun e => Statement.triggerObject d (triggerName m.watchedTable e) m.watchedTable

def counterEffects (d : Dialect) : List Effect :=
  .create true (counterObject d) :: if d = .postgres then [] else [.seed counterName]

/-- What installing and uninstalling capture have to do with each other. The names of log tables are only
compared with what is dropped: a log table can have the name of the counter. -/
structure Mirrored (d : Dialect) (models : List LogModel) (made unmade : List Effect) : Prop where
  triggers : made.filterMap Effect.createdTrigger? = unmade.filterMap Effect.droppedTrigger?
  functions : made.filterMap Effect.createdFunction? = unmade.filterMap Effect.droppedFunction?
  /-- The counter goes last, and beside it only triggers and functions go. -/
  kept : ∃ front, unmade = front ++ [.drop (counterObject d)] ∧
    ∀ x ∈ front, (x.droppedTrigger?).isSome ∨ (x.droppedFunction?).isSome
  /-- A log table goes only as the table of the counter, whose name it then has. -/
  logTables : ∀ m ∈ models, ∀ name, .drop (.table name) ∈ unmade →
    Sql.sameName name m.logTable = true →
    d ≠ .postgres ∧ Sql.sameName m.logTable counterName = true
  order : ∃ blocks, made = counterEffects d ++ blocks.flatten ∧
    List.Forall₂ (MakesLogTable d) models blocks
  rerunnable : Rerunnable made

namespace LogModel

variable {d : Dialect} {strategy : InstallStrategy} {m : LogModel} {e : EventType}

theorem plain_creating (h : Identifier.valid m.watchedTable = true) :
    ∀ s ∈ m.creating d e, s.Plain := by
  have htrigger := isPart_triggerName h e
  have hfunction := isPart_functionName h e
  have hcreate : (Ddl.createTrigger ⟨triggerName m.watchedTable e, m.watchedTable, m.capture e⟩).Plain :=
    ⟨⟨m.watchedTable, e, h, rfl⟩, h⟩
  cases d with
  | sqlite | mySql => exact List.forall_mem_cons.2 ⟨hcreate, nofun⟩
  | postgres =>
      simp only [creating, List.forall_mem_cons]
      exact ⟨hfunction, ⟨htrigger, h⟩, hcreate, nofun⟩

theorem plain_removing (h : Identifier.valid m.watchedTable = true) :
    ∀ s ∈ m.removing d e, s.Plain := by
  have htrigger := isPart_triggerName h e
  have hfunction := isPart_functionName h e
  cases d with
  | sqlite | mySql => exact List.forall_mem_cons.2 ⟨⟨htrigger, h⟩, nofun⟩
  | postgres =>
      simp only [removing, List.forall_mem_cons]
      exact ⟨⟨htrigger, h⟩, hfunction, nofun⟩

theorem plain_triggerStatements (h : Identifier.valid m.watchedTable = true) :
    ∀ s ∈ m.triggerStatements d strategy, s.Plain := by
  intro s hs
  obtain ⟨e, -, hs⟩ := List.mem_flatMap.1 hs
  rcases List.mem_append.1 hs with hs | hs
  · by_cases hstrategy : strategy = .dropCreate
    · rw [if_pos hstrategy] at hs
      exact plain_removing h s hs
    · rw [if_neg hstrategy] at hs
      cases hs
  · exact plain_creating h s hs

end LogModel

namespace Rerunnable

variable {xs ys : List Effect}

theorem of_guarded (h : ∀ o, .create false o ∉ xs) : Rerunnable xs := by
  rintro before o later rfl
  exact absurd (List.mem_append_right _ (List.mem_cons_self ..)) (h o)

theorem replace (o : DbObject) : Rerunnable [.drop o, .create false o] := by
  intro before o' later h
  cases before with
  | nil => cases h
  | cons x before =>
      obtain ⟨rfl, h⟩ := List.cons.inj h
      cases before with
      | nil =>
          cases h
          rfl
      | cons y before =>
          obtain ⟨-, h⟩ := List.cons.inj h
          exact absurd h.symm (by simp)

theorem append (hx : Rerunnable xs) (hy : Rerunnable ys) : Rerunnable (xs ++ ys) := by
  intro before o later h
  rcases List.append_eq_append_iff.1 h with ⟨front, rfl, hlater⟩ | ⟨back, rfl, hlater⟩
  · rw [List.getLast?_append, hy front o later hlater]
    rfl
  · cases back with
    | nil =>
        have hlast := hy [] o later hlater.symm
        cases hlast
    | cons x back =>
        obtain ⟨rfl, rfl⟩ := List.cons.inj hlater
        exact hx before o back rfl

theorem flatten {blocks : List (List Effect)} (h : ∀ b ∈ blocks, Rerunnable b) :
    Rerunnable blocks.flatten := by
  induction blocks with
  | nil => exact of_guarded fun o => List.not_mem_nil
  | cons b blocks ih =>
      obtain ⟨hb, h⟩ := List.forall_mem_cons.1 h
      exact hb.append (ih h)

theorem runs (h : Rerunnable xs) (same : DbObject → DbObject → Bool) (objects : List DbObject) :
    ∃ objects', xs.foldlM (Effect.run same) objects = some objects' := by
  induction xs using List.reverseRec with
  | nil => exact ⟨objects, rfl⟩
  | append_singleton xs x ih =>
      have hxs : Rerunnable xs := fun before o later he =>
        h before o (later ++ [x]) (by rw [he, List.append_assoc]; rfl)
      obtain ⟨os, hos⟩ := ih hxs
      have hlast : ∃ os', Effect.run same os x = some os' := by
        cases x with
        | seed | drop => exact ⟨_, rfl⟩
        | create guarded o =>
            cases guarded with
            | true => cases ho : os.any (same o) <;> exact ⟨_, by rw [Effect.run, ho]; rfl⟩
            | false =>
                -- The statement before has just dropped the object.
                obtain ⟨front, rfl⟩ := List.getLast?_eq_some_iff.1 (h xs o [] rfl)
                rw [List.foldlM_append] at hos
                obtain ⟨os', -, hdrop⟩ := Option.bind_eq_some_iff.1 hos
                have ho : os.any (same o) = false := by
                  cases hdrop
                  simp
                exact ⟨_, by rw [Effect.run, ho]; rfl⟩
      obtain ⟨os', hos'⟩ := hlast
      refine ⟨os', ?_⟩
      rw [List.foldlM_append, hos, Option.bind_eq_bind, Option.bind_some, List.foldlM_cons, hos']
      rfl

end Rerunnable

namespace LogModel

variable (d : Dialect) (strategy : InstallStrategy) (m : LogModel)

theorem created_triggerStatements : ((m.triggerStatements d strategy).map (·.effect d)).filterMap
    Effect.createdTrigger? =
      EventType.all.map fun e => Statement.triggerObject d (triggerName m.watchedTable e) m.watchedTable := by
  by_cases hs : strategy = .dropCreate
  · cases d <;> simp only [triggerStatements, hs, if_true] <;> rfl
  · cases d <;> simp only [triggerStatements, hs, if_false] <;> rfl

theorem rerunnable_creating (e : EventType) : Rerunnable ((m.creating d e).map (·.effect d)) := by
  cases d with
  | sqlite | mySql => exact .of_guarded (by simp [creating, Ddl.effect])
  | postgres =>
      refine @Rerunnable.append [_] _ (.of_guarded (by simp [Ddl.effect])) ?_
      exact Rerunnable.replace _

theorem rerunnable_installation : Rerunnable ((m.installation d strategy).map (·.effect d)) := by
  have hremoving (e : EventType) : ∀ o, .create false o ∉ (m.removing d e).map (·.effect d) := by
    cases d <;> simp [removing, Ddl.effect]
  refine @Rerunnable.append [_] _ (.of_guarded (by simp [Ddl.effect])) ?_
  rw [triggerStatements, List.map_flatMap, List.flatMap_def]
  refine .flatten ?_
  rw [List.forall_mem_map]
  intro e _
  rw [List.map_append]
  refine .append (.of_guarded ?_) (rerunnable_creating d m e)
  by_cases hs : strategy = .dropCreate
  · rw [if_pos hs]
    exact hremoving e
  · rw [if_neg hs]
    exact fun o => List.not_mem_nil

theorem triggers_mirrored :
    ((m.installation d strategy).map (·.effect d)).filterMap Effect.createdTrigger? =
      ((m.removal d).map (·.effect d)).filterMap Effect.droppedTrigger? := by
  refine (created_triggerStatements d strategy m).trans ?_
  cases d <;> rfl

theorem functions_mirrored :
    ((m.installation d strategy).map (·.effect d)).filterMap Effect.createdFunction? =
      ((m.removal d).map (·.effect d)).filterMap Effect.droppedFunction? := by
  by_cases hs : strategy = .dropCreate
  · cases d <;> simp only [installation, triggerStatements, hs, if_true] <;> rfl
  · cases d <;> simp only [installation, triggerStatements, hs, if_false] <;> rfl

theorem dropped_of_removal : ∀ x ∈ (m.removal d).map (·.effect d),
    (x.droppedTrigger?).isSome ∨ (x.droppedFunction?).isSome := by
  intro x hx
  rw [removal, List.map_flatMap] at hx
  obtain ⟨e, -, hx⟩ := List.mem_flatMap.1 hx
  cases d with
  | sqlite | mySql =>
      obtain rfl := List.mem_singleton.1 hx
      exact .inl rfl
  | postgres =>
      rcases List.mem_cons.1 hx with rfl | hx
      · exact .inl rfl
      · obtain rfl := List.mem_singleton.1 hx
        exact .inr rfl

end LogModel

namespace Capture

variable (d : Dialect) (models : List LogModel) (strategy : InstallStrategy)

theorem effect_setup : (setup d).map (·.effect d) = counterEffects d := by
  cases d <;> rfl

theorem table_of_teardown {d : Dialect} {name : String}
    (h : .drop (.table name) ∈ teardown.map (·.effect d)) : d ≠ .postgres ∧ name = counterName := by
  cases d <;> simp_all [teardown, Ddl.effect]

theorem mirrored_installation : Mirrored d models
    ((setup d ++ models.flatMap (·.installation d strategy)).map (·.effect d))
    ((models.flatMap (·.removal d) ++ teardown).map (·.effect d)) where
  triggers := by
    have hsetup : ((setup d).map (·.effect d)).filterMap Effect.createdTrigger? = [] := by
      cases d <;> rfl
    have hteardown : (teardown.map (·.effect d)).filterMap Effect.droppedTrigger? = [] := by
      cases d <;> rfl
    rw [List.map_append, List.filterMap_append, hsetup, List.map_append, List.filterMap_append,
      hteardown, List.nil_append, List.append_nil, List.map_flatMap, List.filterMap_flatMap,
      List.map_flatMap, List.filterMap_flatMap]
    exact List.flatMap_congr fun m _ => m.triggers_mirrored d strategy
  functions := by
    have hsetup : ((setup d).map (·.effect d)).filterMap Effect.createdFunction? = [] := by
      cases d <;> rfl
    have hteardown : (teardown.map (·.effect d)).filterMap Effect.droppedFunction? = [] := by
      cases d <;> rfl
    rw [List.map_append, List.filterMap_append, hsetup, List.map_append, List.filterMap_append,
      hteardown, List.nil_append, List.append_nil, List.map_flatMap, List.filterMap_flatMap,
      List.map_flatMap, List.filterMap_flatMap]
    exact List.flatMap_congr fun m _ => m.functions_mirrored d strategy
  kept := by
    refine ⟨(models.flatMap (·.removal d)).map (·.effect d), List.map_append, ?_⟩
    intro x hx
    rw [List.map_flatMap] at hx
    obtain ⟨m, -, hx⟩ := List.mem_flatMap.1 hx
    exact m.dropped_of_removal d x hx
  logTables := by
    intro m _ name hdrop hname
    rw [List.map_append, List.mem_append] at hdrop
    rcases hdrop with hdrop | hdrop
    · rw [List.map_flatMap] at hdrop
      obtain ⟨m', -, hdrop⟩ := List.mem_flatMap.1 hdrop
      rcases m'.dropped_of_removal d _ hdrop with h | h <;> cases h
    · obtain ⟨hd, rfl⟩ := table_of_teardown hdrop
      rw [Sql.sameName_iff] at hname ⊢
      exact ⟨hd, hname.symm⟩
  order := by
    refine ⟨models.map fun m => (m.installation d strategy).map (·.effect d), ?_, ?_⟩
    · rw [List.map_append, effect_setup, List.map_flatMap, List.flatMap_def]
    · rw [List.forall₂_map_right_iff, List.forall₂_same]
      exact fun m _ => ⟨_, rfl, m.created_triggerStatements d strategy⟩
  rerunnable := by
    rw [List.map_append, List.map_flatMap, List.flatMap_def]
    refine .append (.of_guarded ?_) (.flatten ?_)
    · cases d <;> simp [setup, Ddl.effect]
    · rw [List.forall_mem_map]
      exact fun m _ => m.rerunnable_installation d strategy

variable {d models strategy}

theorem effects?_installation (h : ∀ m ∈ models, m.validateNames = .ok ()) :
    Statement.effects? d ((setup d ++ models.flatMap (·.installation d strategy)).map (·.render d)) =
      some ((setup d ++ models.flatMap (·.installation d strategy)).map (·.effect d)) := by
  refine Ddl.effects?_render fun s hs => ?_
  rcases List.mem_append.1 hs with hs | hs
  · have hsetup : ∀ s ∈ setup d, s.Plain := by cases d <;> simp [setup, Ddl.Plain]
    exact hsetup s hs
  · obtain ⟨m, hm, hs⟩ := List.mem_flatMap.1 hs
    rcases List.mem_cons.1 hs with rfl | hs
    · exact LogModel.valid_logTable (h m hm)
    · exact LogModel.plain_triggerStatements (LogModel.valid_watchedTable (h m hm)) s hs

theorem effects?_removal (h : ∀ m ∈ models, m.validateNames = .ok ()) :
    Statement.effects? d ((models.flatMap (·.removal d) ++ teardown).map (·.render d)) =
      some ((models.flatMap (·.removal d) ++ teardown).map (·.effect d)) := by
  refine Ddl.effects?_render fun s hs => ?_
  rcases List.mem_append.1 hs with hs | hs
  · obtain ⟨m, hm, hs⟩ := List.mem_flatMap.1 hs
    obtain ⟨e, -, hs⟩ := List.mem_flatMap.1 hs
    exact LogModel.plain_removing (LogModel.valid_watchedTable (h m hm)) s hs
  · obtain rfl := List.mem_singleton.1 hs
    trivial

/-- Statements come for all descriptions or for none. The statements that uninstall capture undo those
that install it, and these can be carried out over whatever there is. -/
theorem install_mirrored (hs : strategy ≠ .dontCreate) :
    ((∃ m ∈ models, m.validateNames ≠ .ok ()) →
      (∃ e, install d models strategy = .error e) ∧ ∃ e, uninstall d models = .error e) ∧
    ((∀ m ∈ models, m.validateNames = .ok ()) →
      ∃ made unmade madeEffects unmadeEffects,
        install d models strategy = .ok made ∧ uninstall d models = .ok unmade ∧
        Statement.effects? d (made.map (·.render d)) = some madeEffects ∧
        Statement.effects? d (unmade.map (·.render d)) = some unmadeEffects ∧
        Mirrored d models madeEffects unmadeEffects ∧
        ∀ same objects, ∃ objects', madeEffects.foldlM (Effect.run same) objects = some objects') := by
  refine ⟨?_, fun h => ?_⟩
  · rintro ⟨m, hm, hne⟩
    have herror : ∃ e, m.validateNames = .error e := by
      cases hv : m.validateNames with
      | ok => exact absurd hv hne
      | error e => exact ⟨e, rfl⟩
    exact ⟨install_error hm herror hs, uninstall_error hm herror⟩
  · have hmirrored := mirrored_installation d models strategy
    exact ⟨_, _, _, _, install_ok h hs, uninstall_ok h, effects?_installation h, effects?_removal h,
      hmirrored, hmirrored.rerunnable.runs⟩

end Capture

end ChangeFeed

namespace ChangeFeed.Sample

open Capture

def friendshipLog : LogModel where
  logTable := "friendship_updates"
  watchedTable := "Friendship"
  ids := [⟨"Wizard", ["wizard_id"], ["wizard"], .integer⟩,
    ⟨"Wizard", ["friend_id"], ["friend"], .integer⟩]

theorem install_mirrored_friendships : InstallStrategy.dropCreate ≠ .dontCreate ∧
    friendshipLog.validateNames = .ok () ∧
    ∃ made unmade madeEffects unmadeEffects,
      install .postgres [friendshipLog] .dropCreate = .ok made ∧
      uninstall .postgres [friendshipLog] = .ok unmade ∧
      Statement.effects? .postgres (made.map (·.render .postgres)) = some madeEffects ∧
      Statement.effects? .postgres (unmade.map (·.render .postgres)) = some unmadeEffects ∧
      Mirrored .postgres [friendshipLog] madeEffects unmadeEffects ∧
      ∀ same objects, ∃ objects', madeEffects.foldlM (Effect.run same) objects = some objects' := by
  have hs : InstallStrategy.dropCreate ≠ .dontCreate := by decide
  have hv : friendshipLog.validateNames = .ok () := by decide
  exact ⟨hs, hv, (install_mirrored hs).2 (List.forall_mem_singleton.2 hv)⟩

/-- A log table with the name of the counter. -/
def counterLog : LogModel where
  logTable := "isync_sequence"
  watchedTable := "place"
  ids := [⟨"Place", ["place_id"], ["id"], .integer⟩]

/-- Where the counter is a table, uninstalling drops a log table of the same name. -/
theorem counterLog_dropped : counterLog.validateNames = .ok () ∧
    (∀ d ∈ [Dialect.sqlite, .mySql], ((uninstall d [counterLog]).toOption.bind fun unmade =>
      Statement.effects? d (unmade.map (·.render d))).any
        (·.contains (.drop (.table counterLog.logTable))) = true) ∧
    (({} : Sql.Database).run (.createLogTable counterLog.logTable counterLog.tableColumns)).toOption.map
      (fun db => ((db.table? counterLog.logTable).isSome,
        (SqlLog.uninstall db [counterLog]).toOption.map (·.table? counterLog.logTable))) =
      some (true, some none) := by
  decide +kernel

end ChangeFeed.Sample
