import ChangeFeed.Proofs.Capture.Effect
import ChangeFeed.Proofs.Capture.Install
import ChangeFeed.Proofs.Decoding

namespace ChangeFeed

open List (forall_mem_nil)

namespace Identifier

def IsLetter (c : Char) : Prop := 'A' ≤ c ∧ c ≤ 'Z' ∨ 'a' ≤ c ∧ c ≤ 'z' ∨ c = '_'

def IsDigit (c : Char) : Prop := '0' ≤ c ∧ c ≤ '9'

/-- The names of the form `[A-Za-z_][A-Za-z0-9_]*`. -/
def IsPlain (name : String) : Prop :=
  ∃ c cs, name.toList = c :: cs ∧ IsLetter c ∧ ∀ x ∈ cs, IsLetter x ∨ IsDigit x

theorem isStart_iff {c : Char} : isStart c = true ↔ IsLetter c := by
  rw [isStart]
  delta Char.isAlpha Char.isUpper Char.isLower
  simp only [IsLetter, Char.le_def, Bool.or_eq_true, Bool.and_eq_true, decide_eq_true_iff, beq_iff_eq,
    or_assoc]

theorem isPart_iff {c : Char} : isPart c = true ↔ IsLetter c ∨ IsDigit c := by
  rw [← isStart_iff]
  simp only [isPart, isStart, IsDigit, Char.isAlphanum, Char.isDigit, Char.le_def, Bool.or_eq_true,
    Bool.and_eq_true, decide_eq_true_iff]
  rw [or_right_comm]

theorem valid_iff {name : String} : valid name = true ↔ IsPlain name := by
  rw [valid, IsPlain]
  cases name.toList with
  | nil => simp [validChars]
  | cons c cs =>
      simp only [validChars, Bool.and_eq_true, List.all_eq_true, isStart_iff, isPart_iff]
      constructor
      · intro h
        exact ⟨c, cs, rfl, h.1, h.2⟩
      · rintro ⟨_, _, ⟨⟩, hc, hcs⟩
        exact ⟨hc, hcs⟩

theorem check_eq_ok_iff {name : String} : check name = .ok () ↔ IsPlain name := by
  rw [← valid_iff, check]
  by_cases h : valid name = true
  · rw [if_pos h]
    exact iff_of_true rfl h
  · rw [if_neg h]
    exact iff_of_false (by simp) h

end Identifier

open Identifier

theorem plain_of_lead {name : String} {cs : List Char} (h : name.toList = "isync_".toList ++ cs)
    (hname : ∀ c ∈ name.toList, isPart c = true) : IsPlain name := by
  refine valid_iff.1 ?_
  rw [h] at hname
  rw [valid, h]
  exact List.all_eq_true.2 fun c hc => hname c (List.mem_cons_of_mem _ hc)

theorem plain_triggerName {table : String} (h : IsPlain table) (e : EventType) :
    IsPlain (triggerName table e) :=
  plain_of_lead (toList_triggerName (valid_iff.2 h) e) (isPart_triggerName (valid_iff.2 h) e)

theorem plain_functionName {table : String} (h : IsPlain table) (e : EventType) :
    IsPlain (functionName table e) := by
  have htext : (functionName table e).toList = (triggerName table e).toList ++ "_fn".toList :=
    String.toList_append
  rw [toList_triggerName (valid_iff.2 h), List.append_assoc] at htext
  exact plain_of_lead htext (isPart_functionName (valid_iff.2 h) e)

namespace LogModel

variable {m : LogModel}

/-- A valid description with plain names only. The columns of a mapping count also where the other list
is shorter. -/
structure Writable (m : LogModel) : Prop where
  valid : m.validate = .ok ()
  tables : IsPlain m.logTable ∧ IsPlain m.watchedTable
  columns : IsPlain m.sequenceColumn ∧ IsPlain m.eventColumn
  ids : ∀ mapping ∈ m.ids, ∀ c ∈ mapping.logColumns ++ mapping.watchedColumns, IsPlain c

theorem forall_mem_columnPairs (h : m.validate = .ok ()) {p : String → Prop} :
    (∀ c ∈ m.columnPairs, p c.log ∧ p c.watched) ↔
      ∀ mapping ∈ m.ids, ∀ c ∈ mapping.logColumns ++ mapping.watchedColumns, p c := by
  simp only [columnPairs, List.forall_mem_flatMap, List.forall_mem_map]
  refine forall₂_congr fun mapping hm => ?_
  have hlength := (validate_ok h).2 mapping hm
  have hlog : (∀ c ∈ mapping.logColumns, p c) ↔
      ∀ c ∈ mapping.logColumns.zip mapping.watchedColumns, p c.1 := by
    rw [← List.forall_mem_map (f := Prod.fst), List.map_fst_zip (Nat.le_of_eq hlength)]
  have hwatched : (∀ c ∈ mapping.watchedColumns, p c) ↔
      ∀ c ∈ mapping.logColumns.zip mapping.watchedColumns, p c.2 := by
    rw [← List.forall_mem_map (f := Prod.snd), List.map_snd_zip (Nat.le_of_eq hlength.symm)]
  rw [List.forall_mem_append, hlog, hwatched, ← forall₂_and]

theorem validateNames_eq_ok_iff : m.validateNames = .ok () ↔ m.Writable := by
  rw [validateNames, check_bind_eq_ok, forM_eq_ok_iff]
  simp only [check_eq_ok_iff, names, List.forall_mem_append, List.forall_mem_flatMap,
    List.forall_mem_cons]
  constructor
  · rintro ⟨hvalid, ⟨hlog, hwatched, hsequence, hevent, -⟩, hpairs⟩
    refine ⟨hvalid, ⟨hlog, hwatched⟩, ⟨hsequence, hevent⟩, ?_⟩
    exact (forall_mem_columnPairs hvalid).1 fun c hc => ⟨(hpairs c hc).1, (hpairs c hc).2.1⟩
  · intro h
    refine ⟨h.valid, ⟨h.tables.1, h.tables.2, h.columns.1, h.columns.2, forall_mem_nil _⟩, ?_⟩
    intro c hc
    have hc := (forall_mem_columnPairs h.valid).2 h.ids c hc
    exact ⟨hc.1, hc.2, forall_mem_nil _⟩

theorem validateNames_error (h : ¬ m.Writable) : ∃ e, m.validateNames = .error e := by
  cases hm : m.validateNames with
  | error e => exact ⟨e, rfl⟩
  | ok => exact absurd (validateNames_eq_ok_iff.1 hm) h

end LogModel

structure Capture.Writable (c : Capture) : Prop where
  logTable : IsPlain c.logTable
  sequenceColumn : IsPlain c.sequenceColumn
  eventColumn : IsPlain c.eventColumn
  copied : ∀ p ∈ c.copied, IsPlain p.1 ∧ IsPlain p.2

namespace Ddl

def Writable : Ddl → Prop
  | createCounter | seedCounter | dropCounter => True
  | createLogTable table columns => IsPlain table ∧ ∀ c ∈ columns, IsPlain c.name
  | replaceFunction function capture => IsPlain function ∧ capture.Writable
  | createTrigger t => IsPlain t.name ∧ IsPlain t.watchedTable ∧ t.capture.Writable
  | dropTrigger trigger table => IsPlain trigger ∧ IsPlain table
  | dropFunction function => IsPlain function

end Ddl

namespace LogModel

variable {m : LogModel} {d : Dialect}

theorem writable_capture (h : m.Writable) (e : EventType) : (m.capture e).Writable where
  logTable := h.tables.1
  sequenceColumn := h.columns.1
  eventColumn := h.columns.2
  copied := by
    refine List.forall_mem_map.2 fun c hc => ?_
    exact (forall_mem_columnPairs h.valid).2 h.ids c hc

theorem writable_createLogTable (h : m.Writable) : (Ddl.createLogTable m.logTable m.tableColumns).Writable := by
  have hmapping {mapping : IdMapping} (hm : mapping ∈ m.ids) (required : Bool) :
      ∀ c ∈ mappingColumns mapping required, IsPlain c.name :=
    List.forall_mem_map.2 fun c hc => h.ids mapping hm c (List.mem_append_left _ hc)
  have hids : ∀ c ∈ m.idColumns, IsPlain c.name := by
    rw [idColumns]
    cases hm : m.ids with
    | nil => exact forall_mem_nil _
    | cons first later =>
        rw [hm] at hmapping
        refine List.forall_mem_append.2 ⟨hmapping (List.mem_cons_self ..) true, ?_⟩
        exact List.forall_mem_flatMap.2 fun mapping hm => hmapping (List.mem_cons_of_mem _ hm) false
  refine ⟨h.tables.1, ?_⟩
  simp only [tableColumns, List.forall_mem_append, List.forall_mem_cons]
  exact ⟨⟨h.columns.1, hids⟩, h.columns.2, forall_mem_nil _⟩

theorem writable_creating (h : m.Writable) (e : EventType) : ∀ s ∈ m.creating d e, s.Writable := by
  have hname := plain_triggerName h.tables.2 e
  have hcapture := writable_capture h e
  cases d <;> simp only [creating, List.forall_mem_cons]
  · exact ⟨⟨hname, h.tables.2, hcapture⟩, forall_mem_nil _⟩
  · exact ⟨⟨plain_functionName h.tables.2 e, hcapture⟩, ⟨hname, h.tables.2⟩,
      ⟨hname, h.tables.2, hcapture⟩, forall_mem_nil _⟩
  · exact ⟨⟨hname, h.tables.2, hcapture⟩, forall_mem_nil _⟩

theorem writable_removing (h : m.Writable) (e : EventType) : ∀ s ∈ m.removing d e, s.Writable := by
  have hname := plain_triggerName h.tables.2 e
  cases d <;> simp only [removing, List.forall_mem_cons]
  · exact ⟨⟨hname, h.tables.2⟩, forall_mem_nil _⟩
  · exact ⟨⟨hname, h.tables.2⟩, plain_functionName h.tables.2 e, forall_mem_nil _⟩
  · exact ⟨⟨hname, h.tables.2⟩, forall_mem_nil _⟩

theorem writable_installation (h : m.Writable) (strategy : InstallStrategy) :
    ∀ s ∈ m.installation d strategy, s.Writable := by
  refine List.forall_mem_cons.2 ⟨writable_createLogTable h, ?_⟩
  refine List.forall_mem_flatMap.2 fun e _ => List.forall_mem_append.2 ⟨?_, writable_creating h e⟩
  by_cases hs : strategy = .dropCreate
  · rw [if_pos hs]
    exact writable_removing h e
  · rw [if_neg hs]
    exact forall_mem_nil _

theorem writable_removal (h : m.Writable) : ∀ s ∈ m.removal d, s.Writable :=
  List.forall_mem_flatMap.2 fun e _ => writable_removing h e

end LogModel

namespace Capture

variable {d : Dialect} {strategy : InstallStrategy} {models : List LogModel} {l : List Ddl}

/-- The lists of statements that can be had for a dialect, in whichever way they are asked for. -/
inductive Yields (d : Dialect) : List Ddl → Prop where
  | setup : Yields d (setup d)
  | teardown : Yields d teardown
  | createLogTable {m : LogModel} {l : List Ddl} (h : createLogTable m = .ok l) : Yields d l
  | createTrigger {m : LogModel} {e : EventType} {l : List Ddl} (h : createTrigger d m e = .ok l) :
    Yields d l
  | dropTrigger {m : LogModel} {e : EventType} {l : List Ddl} (h : dropTrigger d m e = .ok l) :
    Yields d l
  | install {models : List LogModel} {strategy : InstallStrategy} {l : List Ddl}
    (h : install d models strategy = .ok l) : Yields d l
  | uninstall {models : List LogModel} {l : List Ddl} (h : uninstall d models = .ok l) : Yields d l

theorem writable_of_install (h : install d models strategy = .ok l) (hs : strategy ≠ .dontCreate) :
    ∀ m ∈ models, m.Writable := by
  intro m hm
  by_contra hw
  obtain ⟨e, he⟩ := install_error (d := d) hm (LogModel.validateNames_error hw) hs
  rw [h] at he
  cases he

theorem writable_of_uninstall (h : uninstall d models = .ok l) : ∀ m ∈ models, m.Writable := by
  intro m hm
  by_contra hw
  obtain ⟨e, he⟩ := uninstall_error (d := d) hm (LogModel.validateNames_error hw)
  rw [h] at he
  cases he

theorem writable_setup : ∀ s ∈ setup d, s.Writable := by
  cases d <;> simp [setup, Ddl.Writable]

theorem writable_teardown : ∀ s ∈ teardown, s.Writable := List.forall_mem_singleton.2 trivial

theorem Yields.writable (h : Yields d l) : ∀ s ∈ l, s.Writable := by
  cases h with
  | setup => exact writable_setup
  | teardown => exact writable_teardown
  | createLogTable h =>
      have hm := (check_bind_eq_ok.1 h).1
      rw [createLogTable_ok hm] at h
      cases h
      exact List.forall_mem_singleton.2
        (LogModel.writable_createLogTable (LogModel.validateNames_eq_ok_iff.1 hm))
  | createTrigger h =>
      have hm := (check_bind_eq_ok.1 h).1
      rw [createTrigger_ok hm] at h
      cases h
      exact LogModel.writable_creating (LogModel.validateNames_eq_ok_iff.1 hm) _
  | dropTrigger h =>
      have hm := (check_bind_eq_ok.1 h).1
      rw [dropTrigger_ok hm] at h
      cases h
      exact LogModel.writable_removing (LogModel.validateNames_eq_ok_iff.1 hm) _
  | @install models strategy _ h =>
      by_cases hs : strategy = .dontCreate
      · rw [Capture.install, if_pos hs] at h
        cases h
        exact forall_mem_nil _
      · have hm := writable_of_install h hs
        rw [install_ok (fun m hmem => LogModel.validateNames_eq_ok_iff.2 (hm m hmem)) hs] at h
        cases h
        refine List.forall_mem_append.2 ⟨writable_setup, ?_⟩
        exact List.forall_mem_flatMap.2 fun m hmem => LogModel.writable_installation (hm m hmem) strategy
  | uninstall h =>
      have hm := writable_of_uninstall h
      rw [uninstall_ok fun m hmem => LogModel.validateNames_eq_ok_iff.2 (hm m hmem)] at h
      cases h
      refine List.forall_mem_append.2 ⟨?_, writable_teardown⟩
      exact List.forall_mem_flatMap.2 fun m hmem => LogModel.writable_removal (hm m hmem)

end Capture

end ChangeFeed
