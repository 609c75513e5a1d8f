import ChangeFeed.Capture.Install
import ChangeFeed.Proofs.Checks
import ChangeFeed.Proofs.Log.SqlTable

namespace ChangeFeed

namespace LogModel

variable {m : LogModel}

theorem validate_of_validateNames (h : m.validateNames = .ok ()) : m.validate = .ok () := by
  obtain ⟨⟨⟩, hv, -⟩ := bind_eq_ok.1 h
  exact hv

theorem valid_names (h : m.validateNames = .ok ()) : ∀ name ∈ m.names, Identifier.valid name = true := by
  intro name hname
  obtain ⟨-, hnames⟩ := check_bind_eq_ok.1 h
  have hcheck := forM_eq_ok_iff.1 hnames name hname
  rw [Identifier.check] at hcheck
  by_cases hv : Identifier.valid name = true
  · exact hv
  · rw [if_neg hv] at hcheck
    cases hcheck

theorem valid_watchedTable (h : m.validateNames = .ok ()) :
    Identifier.valid m.watchedTable = true :=
  valid_names h _ (by simp [names])

theorem valid_logTable (h : m.validateNames = .ok ()) : Identifier.valid m.logTable = true :=
  valid_names h _ (by simp [names])

/-- The statements that make one trigger, where capture may be installed already. -/
def creating (d : Dialect) (m : LogModel) (e : EventType) : List Ddl :=
  match d with
  | .sqlite | .mySql => [.createTrigger ⟨triggerName m.watchedTable e, m.watchedTable, m.capture e⟩]
  | .postgres =>
    [.replaceFunction (functionName m.watchedTable e) (m.capture e),
      .dropTrigger (triggerName m.watchedTable e) m.watchedTable,
      .createTrigger ⟨triggerName m.watchedTable e, m.watchedTable, m.capture e⟩]

def removing (d : Dialect) (m : LogModel) (e : EventType) : List Ddl :=
  match d with
  | .sqlite | .mySql => [.dropTrigger (triggerName m.watchedTable e) m.watchedTable]
  | .postgres =>
    [.dropTrigger (triggerName m.watchedTable e) m.watchedTable,
      .dropFunction (functionName m.watchedTable e)]

def triggerStatements (d : Dialect) (strategy : InstallStrategy) (m : LogModel) : List Ddl :=
  EventType.all.flatMap fun e =>
    (if strategy = .dropCreate then m.removing d e else []) ++ m.creating d e

def installation (d : Dialect) (strategy : InstallStrategy) (m : LogModel) : List Ddl :=
  .createLogTable m.logTable m.tableColumns :: m.triggerStatements d strategy

def removal (d : Dialect) (m : LogModel) : List Ddl := EventType.all.flatMap (m.removing d)

end LogModel

namespace Capture

variable {d : Dialect} {strategy : InstallStrategy} {m : LogModel} {models : List LogModel}

theorem createLogTable_ok (h : m.validateNames = .ok ()) :
    createLogTable m = .ok [.createLogTable m.logTable m.tableColumns] := by
  rw [createLogTable, h]
  rfl

theorem createTrigger_ok (h : m.validateNames = .ok ()) (e : EventType) :
    createTrigger d m e = .ok (m.creating d e) := by
  rw [createTrigger, h]
  cases d <;> rfl

theorem dropTrigger_ok (h : m.validateNames = .ok ()) (e : EventType) :
    dropTrigger d m e = .ok (m.removing d e) := by
  rw [dropTrigger, h]
  cases d <;> rfl

theorem createTriggers_ok (h : m.validateNames = .ok ()) :
    createTriggers d strategy m = .ok (m.triggerStatements d strategy) := by
  have hone : ∀ e ∈ EventType.all, (do
      let dropped ← if strategy = .dropCreate then dropTrigger d m e else .ok []
      return dropped ++ (← createTrigger d m e) : Except ModelError (List Ddl)) =
        .ok ((if strategy = .dropCreate then m.removing d e else []) ++ m.creating d e) := by
    intro e _
    rw [dropTrigger_ok h, createTrigger_ok h]
    by_cases hs : strategy = .dropCreate <;> simp only [hs, if_true, if_false] <;> rfl
  rw [createTriggers, mapM_eq_map hone]
  rfl

theorem install_ok (h : ∀ m ∈ models, m.validateNames = .ok ()) (hs : strategy ≠ .dontCreate) :
    install d models strategy = .ok (setup d ++ models.flatMap (·.installation d strategy)) := by
  have hone : ∀ m ∈ models, (do
      return (← createLogTable m) ++ (← createTriggers d strategy m) :
        Except ModelError (List Ddl)) =
      .ok (m.installation d strategy) := by
    intro m hm
    rw [createLogTable_ok (h m hm), createTriggers_ok (h m hm)]
    rfl
  rw [install, if_neg hs, mapM_eq_map hone]
  rfl

theorem uninstall_ok (h : ∀ m ∈ models, m.validateNames = .ok ()) :
    uninstall d models = .ok (models.flatMap (·.removal d) ++ teardown) := by
  have hone : ∀ m ∈ models, EventType.all.mapM (dropTrigger d m) =
      .ok (EventType.all.map (m.removing d)) :=
    fun m hm => mapM_eq_map fun e _ => dropTrigger_ok (h m hm) e
  have hflat (models : List LogModel) :
      (models.map fun m => EventType.all.map (m.removing d)).flatten.flatten =
        models.flatMap (·.removal d) := by
    induction models with
    | nil => rfl
    | cons m models ih =>
        rw [List.map_cons, List.flatten_cons, List.flatten_append, ih, List.flatMap_cons]
        rfl
  rw [uninstall, mapM_eq_map hone]
  simp only [bind, Except.bind, hflat]
  rfl

/-- One model that is no valid description keeps all statements back. -/
theorem install_error (hm : m ∈ models) (h : ∃ e, m.validateNames = .error e)
    (hs : strategy ≠ .dontCreate) : ∃ e, install d models strategy = .error e := by
  obtain ⟨e, he⟩ := h
  obtain ⟨e', he'⟩ := mapM_error (f := fun m => do
    return (← createLogTable m) ++ (← createTriggers d strategy m)) hm ⟨e, by rw [createLogTable, he]; rfl⟩
  rw [install, if_neg hs, he']
  exact ⟨e', rfl⟩

theorem uninstall_error (hm : m ∈ models) (h : ∃ e, m.validateNames = .error e) :
    ∃ e, uninstall d models = .error e := by
  obtain ⟨e, he⟩ := h
  have hone : ∃ e, EventType.all.mapM (dropTrigger d m) = .error e := by
    refine mapM_error (EventType.mem_all .insert) ⟨e, ?_⟩
    rw [dropTrigger, he]
    rfl
  obtain ⟨e', he'⟩ := mapM_error (f := fun m => EventType.all.mapM (dropTrigger d m)) hm hone
  rw [uninstall, he']
  exact ⟨e', rfl⟩

end Capture

end ChangeFeed
