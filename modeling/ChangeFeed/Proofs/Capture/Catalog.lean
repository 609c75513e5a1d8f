import ChangeFeed.Proofs.Capture.Fresh
import ChangeFeed.Proofs.Capture.Mirror

namespace ChangeFeed

open Sql

/-- What a database keeps of a name of ASCII characters. PostgreSQL cuts off what is too long. MySQL
refuses such names, so that the statement fails, which is not followed here. -/
def Dialect.kept : Dialect → String → String
  | .postgres, name => String.ofList (name.toList.take 63)
  | .sqlite, name | .mySql, name => name

/-- What is kept of the object's names, up to the case of letters. Sequences have their names among those
of tables. -/
def DbObject.key (d : Dialect) : DbObject → DbObject
  | table name | sequence name => table (foldCase (d.kept name))
  | function name => function (foldCase (d.kept name))
  | trigger name watched =>
    trigger (foldCase (d.kept name)) (watched.map fun table => foldCase (d.kept table))

/-- A way in which a database takes names for the same: each for itself, and others only where what it
keeps of them differs in the case of letters alone. -/
structure Tells (d : Dialect) (same : DbObject → DbObject → Bool) : Prop where
  refl : ∀ o, same o o = true
  key_eq : ∀ {o o'}, same o o' = true → o.key d = o'.key d

/-- The object that a statement makes or drops. -/
def Effect.object? : Effect → Option DbObject
  | create _ o | drop o => some o
  | seed _ => none

namespace Ddl

def replaces : Ddl → Bool
  | replaceFunction .. => true
  | _ => false

def isAbout (d : Dialect) (o : DbObject) (s : Ddl) : Bool := (s.effect d).object? = some o

end Ddl

/-- The objects of a database, each beside the statement that made it, or without one if it was there
before. -/
abbrev Catalog := List (DbObject × Option Ddl)

namespace Catalog

variable (same : DbObject → DbObject → Bool) (d : Dialect)

def maker? (catalog : Catalog) (o : DbObject) : Option (Option Ddl) :=
  (catalog.find? fun x => same o x.1).map (·.2)

/-- Carries a statement out, unless it fails because its object is there already. What else a database may
find wrong with a statement is not looked at, such as a watched table that is missing, a reserved word or
a name that is too long. -/
def run (catalog : Catalog) (s : Ddl) : Option Catalog :=
  match s.effect d with
  | .create guarded o =>
    if catalog.any (same o ·.1) then
      if s.replaces then some (catalog.map fun x => if same o x.1 then (x.1, some s) else x)
      else if guarded then some catalog else none
    else some ((o, some s) :: catalog)
  | .seed _ => some catalog
  | .drop o => some (catalog.filter (!same o ·.1))

/-- What has made an object after a statement about it, if `maker` had made it before. -/
def remade (maker : Option (Option Ddl)) (s : Ddl) : Option (Option Ddl) :=
  match s.effect d with
  | .create .. => some (if s.replaces then some s else maker.getD (some s))
  | .seed _ => maker
  | .drop _ => none

variable {same d} {catalog catalog' : Catalog} {s : Ddl} {o : DbObject}

theorem maker?_eq_none : maker? same catalog o = none ↔ catalog.any (same o ·.1) = false := by
  rw [maker?, Option.map_eq_none_iff, List.find?_eq_none, List.any_eq_false]

theorem maker?_cons_self (h : Tells d same) (maker : Option Ddl) :
    maker? same ((o, maker) :: catalog) o = some maker := by
  have hself : same o (o, maker).1 = true := h.refl o
  rw [maker?, List.find?_cons, hself]
  rfl

theorem maker?_cons_of_ne (h : Tells d same) {o' : DbObject} (hne : o'.key d ≠ o.key d)
    (maker : Option Ddl) : maker? same ((o', maker) :: catalog) o = maker? same catalog o := by
  have hother : same o (o', maker).1 = false := by
    rw [Bool.eq_false_iff]
    exact fun hs => hne (h.key_eq hs).symm
  rw [maker?, List.find?_cons, hother]
  rfl

theorem maker?_drop_of_ne (h : Tells d same) {o' : DbObject} (hne : o'.key d ≠ o.key d) :
    maker? same (catalog.filter (!same o' ·.1)) o = maker? same catalog o := by
  rw [maker?, List.find?_filter]
  refine congrArg (Option.map _) (congrArg (List.find? · catalog) (funext fun x => ?_))
  by_cases hx : same o x.1 = true
  · have hother : same o' x.1 = false := by
      rw [Bool.eq_false_iff]
      exact fun hs => hne ((h.key_eq hs).trans (h.key_eq hx).symm)
    rw [hother, hx]
    rfl
  · rw [Bool.eq_false_iff.2 hx]
    simp

theorem maker?_replace (o' : DbObject) (s : Ddl) :
    maker? same (catalog.map fun x => if same o' x.1 then (x.1, some s) else x) o =
      ((catalog.find? fun x => same o x.1).map fun x => if same o' x.1 then some s else x.2) := by
  have hkept : ((fun x : DbObject × Option Ddl => same o x.1) ∘
      fun x => if same o' x.1 then (x.1, some s) else x) = fun x => same o x.1 := by
    funext x
    rw [Function.comp_apply]
    split <;> rfl
  rw [maker?, List.find?_map, hkept, Option.map_map]
  refine congrArg (Option.map · _) (funext fun x => ?_)
  rw [Function.comp_apply]
  split <;> rfl

theorem maker?_run_of_ne (h : Tells d same) (hrun : run same d catalog s = some catalog')
    (hs : ∀ o', (s.effect d).object? = some o' → o'.key d ≠ o.key d) :
    maker? same catalog' o = maker? same catalog o := by
  rw [run] at hrun
  cases he : s.effect d with
  | seed table =>
      rw [he] at hrun
      cases hrun
      rfl
  | drop o' =>
      rw [he] at hrun
      cases hrun
      exact maker?_drop_of_ne h (hs o' (by rw [he]; rfl))
  | create guarded o' =>
      have hne := hs o' (by rw [he]; rfl)
      rw [he] at hrun
      dsimp only at hrun
      split at hrun
      next =>
        split at hrun
        next =>
          cases hrun
          rw [maker?_replace, maker?]
          cases hfind : catalog.find? fun x => same o x.1 with
          | none => rfl
          | some x =>
              have hx := List.find?_some hfind
              rw [Option.map_some, if_neg fun hs => hne ((h.key_eq hs).trans (h.key_eq hx).symm)]
              rfl
        next =>
          split at hrun
          next =>
            cases hrun
            rfl
          next => cases hrun
      next =>
        cases hrun
        exact maker?_cons_of_ne h hne _

theorem maker?_run_self (h : Tells d same) (hrun : run same d catalog s = some catalog')
    (hs : (s.effect d).object? = some o) :
    maker? same catalog' o = remade d (maker? same catalog o) s := by
  rw [run] at hrun
  rw [remade]
  cases he : s.effect d with
  | seed table =>
      rw [he] at hs
      cases hs
  | drop o' =>
      rw [he] at hrun hs
      cases hrun
      cases hs
      rw [maker?_eq_none, List.any_eq_false]
      intro x hx
      simpa using (List.mem_filter.1 hx).2
  | create guarded o' =>
      rw [he] at hrun hs
      cases hs
      dsimp only at hrun ⊢
      by_cases hany : catalog.any (same o ·.1) = true
      · obtain ⟨maker, hmaker⟩ : ∃ maker, maker? same catalog o = some maker := by
          rw [← Option.ne_none_iff_exists']
          intro hnone
          rw [maker?_eq_none, hany] at hnone
          cases hnone
        rw [if_pos hany] at hrun
        by_cases hr : s.replaces = true
        · rw [if_pos hr] at hrun
          cases hrun
          obtain ⟨x, hfind, -⟩ := Option.map_eq_some_iff.1 hmaker
          have hx := List.find?_some hfind
          rw [maker?_replace, hfind, Option.map_some, if_pos hx, if_pos hr]
        · rw [if_neg hr] at hrun
          split at hrun
          next =>
            cases hrun
            rw [if_neg hr, hmaker]
            rfl
          next => cases hrun
      · rw [if_neg hany] at hrun
        cases hrun
        rw [maker?_eq_none.2 (Bool.eq_false_iff.2 hany), maker?_cons_self h]
        by_cases hr : s.replaces = true
        · rw [if_pos hr]
        · rw [if_neg hr]
          rfl

/-- What has made an object after some statements depends on those about it alone. The induction is on the
statements. -/
theorem maker?_foldlM (h : Tells d same) {ss : List Ddl}
    (hss : ∀ s ∈ ss, ∀ o', (s.effect d).object? = some o' → o'.key d = o.key d → o' = o)
    (hrun : ss.foldlM (run same d) catalog = some catalog') : maker? same catalog' o =
      (ss.filter (·.isAbout d o)).foldl (remade d) (maker? same catalog o) := by
  induction ss generalizing catalog with
  | nil =>
      cases hrun
      rfl
  | cons s ss ih =>
      obtain ⟨hs, hss⟩ := List.forall_mem_cons.1 hss
      rw [List.foldlM_cons] at hrun
      obtain ⟨next, hnext, hrun⟩ := Option.bind_eq_some_iff.1 hrun
      have hrest := ih hss hrun
      by_cases ho : (s.effect d).object? = some o
      · have habout : s.isAbout d o = true := decide_eq_true ho
        rw [List.filter_cons_of_pos habout, List.foldl_cons, hrest, maker?_run_self h hnext ho]
      · have hother : ¬ s.isAbout d o = true := fun hs => ho (of_decide_eq_true hs)
        rw [List.filter_cons_of_neg hother, hrest, maker?_run_of_ne h hnext]
        intro o' ho' hfold
        exact ho (ho'.trans (congrArg some (hs o' ho' hfold)))

theorem map_run (catalog : Catalog) (s : Ddl) : (run same d catalog s).map (·.map Prod.fst) =
    Effect.run same (catalog.map Prod.fst) (s.effect d) := by
  have hreplaces : s.replaces = true → ∃ o, s.effect d = .create true o := by
    cases s with
    | replaceFunction function c => exact fun _ => ⟨_, rfl⟩
    | _ => nofun
  rw [run]
  cases he : s.effect d with
  | seed table => rfl
  | drop o =>
      rw [Effect.run, List.filter_map]
      rfl
  | create guarded o =>
      rw [Effect.run, List.any_map]
      by_cases hany : catalog.any (same o ·.1) = true
      · have hany' : catalog.any (same o ∘ Prod.fst) = true := hany
        dsimp only
        rw [if_pos hany, if_pos hany']
        by_cases hr : s.replaces = true
        · obtain ⟨o', ho'⟩ := hreplaces hr
          cases he.symm.trans ho'
          rw [if_pos hr, if_pos rfl, Option.map_some, List.map_map]
          refine congrArg some (List.map_congr_left fun x _ => ?_)
          rw [Function.comp_apply]
          split <;> rfl
        · rw [if_neg hr]
          cases guarded <;> rfl
      · have hany' : ¬ catalog.any (same o ∘ Prod.fst) = true := hany
        dsimp only
        rw [if_neg hany, if_neg hany']
        rfl

theorem map_foldlM (ss : List Ddl) (catalog : Catalog) :
    (ss.foldlM (run same d) catalog).map (·.map Prod.fst) =
      (ss.map (·.effect d)).foldlM (Effect.run same) (catalog.map Prod.fst) := by
  induction ss generalizing catalog with
  | nil => rfl
  | cons s ss ih =>
      rw [List.foldlM_cons, List.map_cons, List.foldlM_cons, ← map_run]
      cases run same d catalog s with
      | none => rfl
      | some next => exact ih next

end Catalog

theorem sameName_triggerName_iff {a b : String} (ha : Identifier.valid a = true)
    (hb : Identifier.valid b = true) {e e' : EventType} :
    sameName (triggerName a e) (triggerName b e') = true ↔ sameName a b = true ∧ e = e' := by
  refine ⟨triggerName_inj ha hb, ?_⟩
  rintro ⟨hsame, rfl⟩
  apply decide_eq_true
  apply String.toList_inj.1
  rw [toList_foldCase_triggerName ha, toList_foldCase_triggerName hb, sameName_iff.1 hsame]

theorem sameName_functionName_iff {a b : String} {e e' : EventType} :
    sameName (functionName a e) (functionName b e') = true ↔
      sameName (triggerName a e) (triggerName b e') = true := by
  have htext (a : String) (e : EventType) : (foldCase (functionName a e)).toList =
      (foldCase (triggerName a e)).toList ++ "_fn".toList := by
    rw [show functionName a e = triggerName a e ++ "_fn" from rfl]
    simp only [foldCase, String.toList_map, String.toList_append, List.map_append]
    rfl
  rw [sameName_iff, sameName_iff, ← String.toList_inj, htext, htext, List.append_left_inj,
    String.toList_inj]

theorem sameName_kept_functionName (d : Dialect) {a b : String} {e e' : EventType}
    (h : sameName (d.kept (triggerName a e)) (d.kept (triggerName b e')) = true) :
    sameName (d.kept (functionName a e)) (d.kept (functionName b e')) = true := by
  have htext (a : String) (e : EventType) : (functionName a e).toList =
      (triggerName a e).toList ++ "_fn".toList := by
    rw [show functionName a e = triggerName a e ++ "_fn" from rfl, String.toList_append]
  cases d with
  | sqlite | mySql => exact sameName_functionName_iff.2 h
  | postgres =>
      rw [sameName_iff, ← String.toList_inj] at h ⊢
      simp only [Dialect.kept, foldCase, String.toList_map, String.toList_ofList] at h ⊢
      have hlength := congrArg List.length h
      simp only [List.length_map, List.length_take] at hlength
      have hrest : 63 - (triggerName a e).toList.length = 63 - (triggerName b e').toList.length := by
        omega
      rw [htext, htext, List.take_append, List.take_append, List.map_append, List.map_append, h, hrest]

/-- What the database keeps of the names of functions determines the table, up to the case of letters, and
the kind of change. -/
def Dialect.KeepsApart (d : Dialect) (models : List LogModel) : Prop :=
  ∀ m ∈ models, ∀ m' ∈ models, ∀ e e',
    sameName (d.kept (functionName m.watchedTable e)) (d.kept (functionName m'.watchedTable e')) = true →
      sameName m.watchedTable m'.watchedTable = true ∧ e = e'

theorem length_functionName {table : String} (h : Identifier.valid table = true) (e : EventType) :
    (functionName table e).toList.length = table.toList.length + 16 := by
  have hfold (name : String) : (foldCase name).toList.length = name.toList.length := by
    rw [foldCase, String.toList_map, List.length_map]
  have htrigger := congrArg List.length (toList_foldCase_triggerName h e)
  rw [hfold, List.length_append, List.length_append, List.length_append, hfold] at htrigger
  have hname : e.name.toList.length = 6 := by cases e <;> decide
  have hprefix : "isync_".toList.length = 6 := by decide
  have hbar : "_".toList.length = 1 := by decide
  have hsuffix : "_fn".toList.length = 3 := by decide
  rw [show functionName table e = triggerName table e ++ "_fn" from rfl, String.toList_append,
    List.length_append]
  omega

theorem keepsApart_of_short {d : Dialect} {models : List LogModel}
    (hv : ∀ m ∈ models, m.validateNames = .ok ())
    (hshort : d = .postgres → ∀ m ∈ models, m.watchedTable.toList.length ≤ 47) :
    d.KeepsApart models := by
  intro m hm m' hm' e e' h
  have hkept (m : LogModel) (hm : m ∈ models) (e : EventType) :
      d.kept (functionName m.watchedTable e) = functionName m.watchedTable e := by
    cases d with
    | sqlite | mySql => rfl
    | postgres =>
        have hlength := length_functionName (LogModel.valid_watchedTable (hv m hm)) e
        have hwatched := hshort rfl m hm
        rw [Dialect.kept, List.take_of_length_le (by omega), String.ofList_toList]
  rw [hkept m hm, hkept m' hm'] at h
  exact (sameName_triggerName_iff (LogModel.valid_watchedTable (hv m hm))
    (LogModel.valid_watchedTable (hv m' hm'))).1 (sameName_functionName_iff.1 h)

namespace LogModel

variable {d : Dialect} {strategy : InstallStrategy} {m m' : LogModel} {e e' : EventType}

def triggerObject (d : Dialect) (m : LogModel) (e : EventType) : DbObject :=
  Statement.triggerObject d (triggerName m.watchedTable e) m.watchedTable

def functionObject (m : LogModel) (e : EventType) : DbObject := .function (functionName m.watchedTable e)

def eventStatements (d : Dialect) (strategy : InstallStrategy) (m : LogModel) (e : EventType) : List Ddl :=
  (if strategy = .dropCreate then m.removing d e else []) ++ m.creating d e

theorem object?_of_mem {s : Ddl} (h : s ∈ m.eventStatements d strategy e) {o : DbObject}
    (ho : (s.effect d).object? = some o) : o = m.triggerObject d e ∨ o = m.functionObject e := by
  have hall : s ∈ m.removing d e ++ m.creating d e := by
    rcases List.mem_append.1 h with h | h
    · split at h
      next => exact List.mem_append_left _ h
      next => cases h
    · exact List.mem_append_right _ h
  cases d with
  | sqlite | mySql =>
      simp only [removing, creating, List.cons_append, List.nil_append, List.mem_cons,
        List.not_mem_nil, or_false] at hall
      rcases hall with rfl | rfl
      · exact .inl (Option.some.inj ho).symm
      · exact .inl (Option.some.inj ho).symm
  | postgres =>
      simp only [removing, creating, List.cons_append, List.nil_append, List.mem_cons,
        List.not_mem_nil, or_false] at hall
      rcases hall with rfl | rfl | rfl | rfl | rfl
      · exact .inl (Option.some.inj ho).symm
      · exact .inr (Option.some.inj ho).symm
      · exact .inr (Option.some.inj ho).symm
      · exact .inl (Option.some.inj ho).symm
      · exact .inl (Option.some.inj ho).symm

theorem remade_trigger (maker : Option (Option Ddl)) :
    ((m.eventStatements d strategy e).filter (·.isAbout d (m.triggerObject d e))).foldl
      (Catalog.remade d) maker =
        if strategy = .dropCreate ∨ d = .postgres then some (some (.createTrigger (m.trigger e)))
        else some (maker.getD (some (.createTrigger (m.trigger e)))) := by
  by_cases hs : strategy = .dropCreate
  · cases d <;> simp [eventStatements, hs, removing, creating, Ddl.isAbout, Ddl.effect, Effect.object?,
      triggerObject, Catalog.remade, Ddl.replaces, trigger, Statement.triggerObject]
  · cases d <;> simp [eventStatements, hs, creating, Ddl.isAbout, Ddl.effect, Effect.object?,
      triggerObject, Catalog.remade, Ddl.replaces, trigger, Statement.triggerObject]

theorem remade_function (maker : Option (Option Ddl)) :
    ((m.eventStatements .postgres strategy e).filter (·.isAbout .postgres (m.functionObject e))).foldl
      (Catalog.remade .postgres) maker =
        some (some (.replaceFunction (functionName m.watchedTable e) (m.capture e))) := by
  by_cases hs : strategy = .dropCreate
  · simp [eventStatements, hs, removing, creating, Ddl.isAbout, Ddl.effect, Effect.object?,
      functionObject, Catalog.remade, Ddl.replaces, Statement.triggerObject]
  · simp [eventStatements, hs, creating, Ddl.isAbout, Ddl.effect, Effect.object?,
      functionObject, Catalog.remade, Ddl.replaces, Statement.triggerObject]

end LogModel

namespace Capture

variable {d : Dialect} {strategy : InstallStrategy} {models : List LogModel} {m m' : LogModel}
  {e e' : EventType}

def Owns (d : Dialect) (m : LogModel) (e : EventType) (o : DbObject) : Prop :=
  o = m.triggerObject d e ∨ o = m.functionObject e

section

variable (hwatched : (models.map fun m => foldCase m.watchedTable).Nodup)
include hwatched

theorem eq_of_triggerName (hv : ∀ m ∈ models, m.validateNames = .ok ()) (hm : m ∈ models) (hm' : m' ∈ models)
    (h : sameName (triggerName m.watchedTable e) (triggerName m'.watchedTable e') = true) :
    m = m' ∧ e = e' := by
  obtain ⟨hsame, he⟩ := triggerName_inj (LogModel.valid_watchedTable (hv m hm))
    (LogModel.valid_watchedTable (hv m' hm')) h
  exact ⟨eq_of_key hwatched hm hm' (sameName_iff.1 hsame), he⟩

theorem Owns.unique (hkept : d.KeepsApart models) {o o' : DbObject} (ho : Owns d m e o)
    (ho' : Owns d m' e' o') (hm : m ∈ models) (hm' : m' ∈ models) (h : o'.key d = o.key d) :
    m' = m ∧ e' = e ∧ o' = o := by
  have hname : sameName (d.kept (functionName m'.watchedTable e'))
      (d.kept (functionName m.watchedTable e)) = true := by
    rcases ho with rfl | rfl <;> rcases ho' with rfl | rfl
    · exact sameName_kept_functionName d (sameName_iff.2 (DbObject.trigger.inj h).1)
    · cases h
    · cases h
    · exact sameName_iff.2 (DbObject.function.inj h)
  obtain ⟨hsame, rfl⟩ := hkept m' hm' m hm e' e hname
  obtain rfl := eq_of_key hwatched hm' hm (sameName_iff.1 hsame)
  refine ⟨rfl, rfl, ?_⟩
  rcases ho with rfl | rfl <;> rcases ho' with rfl | rfl
  · rfl
  · cases h
  · cases h
  · rfl

end

theorem installation_eq (d : Dialect) (strategy : InstallStrategy) (m : LogModel) :
    m.installation d strategy = .createLogTable m.logTable m.tableColumns ::
      EventType.all.flatMap (m.eventStatements d strategy) := rfl

theorem object?_of_setup {s : Ddl} (h : s ∈ setup d) {o : DbObject}
    (ho : (s.effect d).object? = some o) : o = counterObject d := by
  have hall : ∀ s ∈ setup d, ∀ o, (s.effect d).object? = some o → o = counterObject d := by
    cases d <;> simp [setup, Ddl.effect, Effect.object?, counterObject, eq_comm]
  exact hall s h o ho

theorem object?_of_install {s : Ddl} (h : s ∈ setup d ++ models.flatMap (·.installation d strategy))
    {o : DbObject} (ho : (s.effect d).object? = some o) : o = counterObject d ∨
      (∃ m ∈ models, o = .table m.logTable) ∨ ∃ m ∈ models, ∃ e, Owns d m e o := by
  rcases List.mem_append.1 h with h | h
  · exact .inl (object?_of_setup h ho)
  · obtain ⟨m, hm, h⟩ := List.mem_flatMap.1 h
    rcases List.mem_cons.1 h with rfl | h
    · exact .inr (.inl ⟨m, hm, (Option.some.inj ho).symm⟩)
    · obtain ⟨e, -, h⟩ := List.mem_flatMap.1 h
      exact .inr (.inr ⟨m, hm, e, LogModel.object?_of_mem h ho⟩)

theorem filter_eq_nil_of_ne {ss : List Ddl} {o : DbObject}
    (h : ∀ s ∈ ss, (s.effect d).object? ≠ some o) : ss.filter (·.isAbout d o) = [] :=
  List.filter_eq_nil_iff.2 fun s hs habout => h s hs (of_decide_eq_true habout)

theorem filter_logTable (hlogs : (models.map fun m => foldCase (d.kept m.logTable)).Nodup)
    (hcounter : foldCase (d.kept m.logTable) ≠ foldCase counterName) (hm : m ∈ models) :
    (setup d ++ models.flatMap (·.installation d strategy)).filter (·.isAbout d (.table m.logTable)) =
      [.createLogTable m.logTable m.tableColumns] := by
  have hsetup : (setup d).filter (·.isAbout d (.table m.logTable)) = [] := by
    refine filter_eq_nil_of_ne fun s hs habout => hcounter ?_
    have he := congrArg (DbObject.key d) (object?_of_setup hs habout)
    cases d <;> exact DbObject.table.inj he
  have htriggers (m' : LogModel) : (EventType.all.flatMap (m'.eventStatements d strategy)).filter
      (·.isAbout d (.table m.logTable)) = [] := by
    refine filter_eq_nil_of_ne fun s hs habout => ?_
    obtain ⟨e, -, hs⟩ := List.mem_flatMap.1 hs
    rcases LogModel.object?_of_mem hs habout with he | he <;> cases he
  rw [List.filter_append, hsetup, List.nil_append, List.filter_flatMap,
    flatMap_eq_of_unique (List.Nodup.of_map _ hlogs) hm, installation_eq, List.filter_cons_of_pos,
    htriggers]
  · exact decide_eq_true rfl
  · intro m' hm' hne
    rw [installation_eq, List.filter_cons_of_neg, htriggers]
    intro habout
    have he := DbObject.table.inj (Option.some.inj (of_decide_eq_true habout))
    exact hne (eq_of_key hlogs hm' hm (congrArg (fun name => foldCase (d.kept name)) he))

section

variable (hwatched : (models.map fun m => foldCase m.watchedTable).Nodup)
  (hkept : d.KeepsApart models)
include hwatched hkept

theorem filter_owned (hm : m ∈ models) {o : DbObject} (ho : Owns d m e o) :
    (setup d ++ models.flatMap (·.installation d strategy)).filter (·.isAbout d o) =
      (m.eventStatements d strategy e).filter (·.isAbout d o) := by
  have hsetup : (setup d).filter (·.isAbout d o) = [] := by
    refine filter_eq_nil_of_ne fun s hs habout => ?_
    have he := object?_of_setup hs habout
    rcases ho with rfl | rfl <;> cases d <;> cases he
  have hevent (m' : LogModel) (hm' : m' ∈ models) (e' : EventType) (hne : m' ≠ m ∨ e' ≠ e) :
      (m'.eventStatements d strategy e').filter (·.isAbout d o) = [] := by
    refine filter_eq_nil_of_ne fun s hs habout => ?_
    obtain ⟨he, hev, -⟩ := ho.unique hwatched hkept (LogModel.object?_of_mem hs habout) hm hm' rfl
    rcases hne with hne | hne
    · exact hne he
    · exact hne hev
  have hmodel (m' : LogModel) : (m'.installation d strategy).filter (·.isAbout d o) =
      EventType.all.flatMap fun e' => (m'.eventStatements d strategy e').filter (·.isAbout d o) := by
    have htable : ¬ (Ddl.createLogTable m'.logTable m'.tableColumns).isAbout d o = true := by
      intro habout
      have he := Option.some.inj (of_decide_eq_true habout)
      rcases ho with rfl | rfl <;> cases he
    rw [installation_eq, List.filter_cons_of_neg htable, List.filter_flatMap]
  have hevents : EventType.all.Nodup := by decide
  rw [List.filter_append, hsetup, List.nil_append, List.filter_flatMap,
    flatMap_eq_of_unique (List.Nodup.of_map _ hwatched) hm, hmodel,
    flatMap_eq_of_unique hevents e.mem_all]
  · exact fun e' _ hne => hevent m hm e' (.inr hne)
  · intro m' hm' hne
    rw [hmodel, List.flatMap_eq_nil_iff]
    exact fun e' _ => hevent m' hm' e' (.inl hne)

theorem object?_unique (hm : m ∈ models) {o : DbObject} (ho : Owns d m e o) :
    ∀ s ∈ setup d ++ models.flatMap (·.installation d strategy), ∀ o',
      (s.effect d).object? = some o' → o'.key d = o.key d → o' = o := by
  intro s hs o' ho' hfold
  rcases object?_of_install hs ho' with rfl | ⟨m', -, rfl⟩ | ⟨m', hm', e', howns⟩
  · rcases ho with rfl | rfl <;> cases d <;> cases hfold
  · rcases ho with rfl | rfl <;> cases hfold
  · exact (ho.unique hwatched hkept howns hm hm' hfold).2.2

end

/-- What has made the objects of a model, once capture is installed over `before`. Triggers that are
there already are kept where the strategy and the dialect let them be. -/
structure Makes (same : DbObject → DbObject → Bool) (d : Dialect) (strategy : InstallStrategy)
    (m : LogModel) (before after : Catalog) : Prop where
  trigger : ∀ e, after.maker? same (m.triggerObject d e) =
    if strategy = .dropCreate ∨ d = .postgres then some (some (.createTrigger (m.trigger e)))
    else some ((before.maker? same (m.triggerObject d e)).getD (some (.createTrigger (m.trigger e))))
  function : d = .postgres → ∀ e, after.maker? same (m.functionObject e) =
    some (some (.replaceFunction (functionName m.watchedTable e) (m.capture e)))

section

variable {same : DbObject → DbObject → Bool} (h : Tells d same) {before after : Catalog}
  (hrun : (setup d ++ models.flatMap (·.installation d strategy)).foldlM (Catalog.run same d) before =
    some after)
include h hrun

theorem maker?_logTable (hlogs : (models.map fun m => foldCase (d.kept m.logTable)).Nodup)
    (hcounter : foldCase (d.kept m.logTable) ≠ foldCase counterName) (hm : m ∈ models) :
    after.maker? same (.table m.logTable) = some ((before.maker? same (.table m.logTable)).getD
      (some (.createLogTable m.logTable m.tableColumns))) := by
  rw [Catalog.maker?_foldlM h ?_ hrun, filter_logTable hlogs hcounter hm]
  · rfl
  · intro s hs o' ho' hfold
    rcases object?_of_install hs ho' with rfl | ⟨m', hm', rfl⟩ | ⟨m', -, e', rfl | rfl⟩
    · refine absurd ?_ hcounter
      cases d <;> exact (DbObject.table.inj hfold).symm
    · rw [eq_of_key hlogs hm' hm (DbObject.table.inj hfold)]
    · cases hfold
    · cases hfold

theorem makes_installation (hwatched : (models.map fun m => foldCase m.watchedTable).Nodup)
    (hkept : d.KeepsApart models) (hm : m ∈ models) :
    Makes same d strategy m before after where
  trigger e := by
    have howns : Owns d m e (m.triggerObject d e) := .inl rfl
    rw [Catalog.maker?_foldlM h (object?_unique hwatched hkept hm howns) hrun,
      filter_owned hwatched hkept hm howns, LogModel.remade_trigger]
  function hd e := by
    subst hd
    have howns : Owns .postgres m e (m.functionObject e) := .inr rfl
    rw [Catalog.maker?_foldlM h (object?_unique hwatched hkept hm howns) hrun,
      filter_owned hwatched hkept hm howns, LogModel.remade_function]

end

theorem exists_run (d : Dialect) (models : List LogModel) (strategy : InstallStrategy)
    (same : DbObject → DbObject → Bool) (before : Catalog) : ∃ after : Catalog,
      (setup d ++ models.flatMap (·.installation d strategy)).foldlM (Catalog.run same d) before =
        some after := by
  obtain ⟨objects, hobjects⟩ := (mirrored_installation d models strategy).rerunnable.runs same
    (before.map Prod.fst)
  rw [← Catalog.map_foldlM] at hobjects
  obtain ⟨after, hrun, -⟩ := Option.map_eq_some_iff.1 hobjects
  exact ⟨after, hrun⟩

end Capture

end ChangeFeed

namespace ChangeFeed.Sample

open Sql Capture

def foldedNames (d : Dialect) (o o' : DbObject) : Bool := o.key d = o'.key d

theorem tells_foldedNames (d : Dialect) : Tells d (foldedNames d) where
  refl _ := decide_eq_true rfl
  key_eq h := of_decide_eq_true h

theorem maker?_foldedNames {d : Dialect} {o o' : DbObject} (h : o.key d = o'.key d) (catalog : Catalog) :
    catalog.maker? (foldedNames d) o = catalog.maker? (foldedNames d) o' := by
  simp only [Catalog.maker?, foldedNames, h]

def placeAudit : LogModel := { placeUpdates with logTable := "place_audit" }

/-- A log table for a table whose name has 59 letters and what is given. -/
def longNamed (last : String) : LogModel where
  logTable := "log_" ++ last
  watchedTable := "aaaaaaaaaaaaaaaaaaaaaaaaaaaaaaaaaaaaaaaaaaaaaaaaaaaaaaaaaaa" ++ last
  ids := [⟨"Place", ["place_id"], ["id"], .integer⟩]

def countCaptured (strategy : InstallStrategy) : Except Failure (Nat × Nat) := do
  let db ← SqlLog.install (untouched []) [placeUpdates, placeAudit] strategy
  let (db, _) ← SqlLog.ofSql (db.change (addPlace 7 "Hogwarts"))
  return (← SqlLog.pendingRows db placeUpdates, ← SqlLog.pendingRows db placeAudit)

theorem functions_cutOff : ∃ after : Catalog,
    (setup .postgres ++ [longNamed "x", longNamed "y"].flatMap (·.installation .postgres .create)).foldlM
      (Catalog.run (foldedNames .postgres) .postgres) [] = some after ∧
    after.maker? (foldedNames .postgres) ((longNamed "x").functionObject .insert) =
      some (some (.replaceFunction (functionName (longNamed "y").watchedTable .delete)
        ((longNamed "y").capture .delete))) := by
  obtain ⟨after, hrun⟩ := exists_run .postgres [longNamed "x", longNamed "y"] .create
    (foldedNames .postgres) []
  refine ⟨after, hrun, ?_⟩
  have hname : Dialect.postgres.kept (functionName (longNamed "x").watchedTable .insert) =
      Dialect.postgres.kept (functionName (longNamed "y").watchedTable .delete) :=
    congrArg String.ofList (by decide +kernel)
  have hkey : ((longNamed "x").functionObject .insert).key .postgres =
      ((longNamed "y").functionObject .delete).key .postgres :=
    congrArg (fun name => DbObject.function (foldCase name)) hname
  have hsplit : setup .postgres ++
      [longNamed "x", longNamed "y"].flatMap (·.installation .postgres .create) =
        (setup .postgres ++ (longNamed "x").installation .postgres .create ++
          .createLogTable (longNamed "y").logTable (longNamed "y").tableColumns ::
            [EventType.insert, .update].flatMap ((longNamed "y").eventStatements .postgres .create)) ++
          (longNamed "y").eventStatements .postgres .create .delete := rfl
  rw [hsplit, List.foldlM_append] at hrun
  obtain ⟨_, -, hlast⟩ := Option.bind_eq_some_iff.1 hrun
  rw [maker?_foldedNames hkey, Catalog.maker?_foldlM (tells_foldedNames .postgres) ?_ hlast,
    LogModel.remade_function]
  intro s hs o ho hfold
  rcases LogModel.object?_of_mem hs ho with rfl | rfl
  · cases hfold
  · rfl

end ChangeFeed.Sample
