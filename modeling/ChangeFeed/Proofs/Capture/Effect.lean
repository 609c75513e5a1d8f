import ChangeFeed.Proofs.Capture.Name
import Mathlib.Data.List.Basic

namespace ChangeFeed

/-- An object of a database. A trigger belongs to a table where that is a part of its name. -/
inductive DbObject where
  | table (name : String)
  | sequence (name : String)
  | function (name : String)
  | trigger (name : String) (table : Option String)
  deriving DecidableEq

/-- What a statement does to the objects of a database. A guarded creation leaves an object alone that
is there already; objects that are not there are dropped without complaint. -/
inductive Effect where
  | create (guarded : Bool) (o : DbObject)
  | seed (table : String)
  | drop (o : DbObject)
  deriving DecidableEq

namespace Statement

def name (cs : List Char) : String := String.ofList (cs.takeWhile Identifier.isPart)

def pastName (cs : List Char) : List Char := cs.dropWhile Identifier.isPart

def triggerObject (d : Dialect) (trigger table : String) : DbObject :=
  .trigger trigger (if d = .postgres then some table else none)

def createdTrigger? (d : Dialect) (cs : List Char) : Option DbObject := do
  let event ← " AFTER ".toList.isPrefixOf? (pastName cs)
  let table ← " ON ".toList.isPrefixOf? (pastName event)
  return triggerObject d (name cs) (name table)

def droppedTrigger? (d : Dialect) (cs : List Char) : Option DbObject :=
  if d = .postgres then
    (" ON ".toList.isPrefixOf? (pastName cs)).map fun table => triggerObject d (name cs) (name table)
  else some (triggerObject d (name cs) "")

/-- How statements begin, and what each says by what follows. -/
def forms (d : Dialect) : List (String × (List Char → Option Effect)) := [
  ("CREATE TABLE IF NOT EXISTS ", fun cs => some (.create true (.table (name cs)))),
  ("CREATE SEQUENCE IF NOT EXISTS ", fun cs => some (.create true (.sequence (name cs)))),
  ("CREATE OR REPLACE FUNCTION ", fun cs => some (.create true (.function (name cs)))),
  ("CREATE TRIGGER IF NOT EXISTS ", fun cs => (createdTrigger? d cs).map (.create true)),
  ("CREATE TRIGGER ", fun cs => (createdTrigger? d cs).map (.create false)),
  ("INSERT OR IGNORE INTO ", fun cs => some (.seed (name cs))),
  ("INSERT INTO ", fun cs =>
    (" (id) SELECT 0 FROM DUAL WHERE NOT EXISTS ".toList.isPrefixOf? (pastName cs)).map fun _ =>
      .seed (name cs)),
  ("DROP TABLE IF EXISTS ", fun cs => some (.drop (.table (name cs)))),
  ("DROP SEQUENCE IF EXISTS ", fun cs => some (.drop (.sequence (name cs)))),
  ("DROP FUNCTION IF EXISTS ", fun cs => some (.drop (.function (name cs)))),
  ("DROP TRIGGER IF EXISTS ", fun cs => (droppedTrigger? d cs).map .drop)]

def effect? (d : Dialect) (text : String) : Option Effect :=
  (forms d).findSome? fun f => f.1.toList.isPrefixOf? text.toList >>= f.2

def effects? (d : Dialect) (texts : List String) : Option (List Effect) := texts.mapM (effect? d)

end Statement

namespace Ddl

open Statement

def effect (d : Dialect) : Ddl → Effect
  | createCounter => .create true (if d = .postgres then .sequence counterName else .table counterName)
  | seedCounter => .seed counterName
  | dropCounter => .drop (if d = .postgres then .sequence counterName else .table counterName)
  | createLogTable table _ => .create true (.table table)
  | replaceFunction function _ => .create true (.function function)
  | createTrigger t => .create (d ≠ .postgres) (triggerObject d t.name t.watchedTable)
  | dropTrigger trigger watchedTable => .drop (triggerObject d trigger watchedTable)
  | dropFunction function => .drop (.function function)

end Ddl

namespace Identifier

theorem isPart_of_valid {name : String} (h : valid name = true) :
    ∀ c ∈ name.toList, isPart c = true := by
  rw [valid] at h
  cases hcs : name.toList with
  | nil => simp
  | cons c cs =>
      rw [hcs, validChars, Bool.and_eq_true, List.all_eq_true] at h
      refine List.forall_mem_cons.2 ⟨?_, h.2⟩
      have hstart := h.1
      simp only [isStart, Bool.or_eq_true] at hstart
      simp only [isPart, Char.isAlphanum, Bool.or_eq_true]
      exact hstart.imp_left .inl

end Identifier

namespace Statement

theorem isPrefixOf?_append (lead rest : String) :
    lead.toList.isPrefixOf? (lead ++ rest).toList = some rest.toList :=
  List.isPrefixOf?_eq_some_iff_append_eq.2 String.toList_append.symm

theorem head?_append {t : String} (ht : t.toList.head?.any (!Identifier.isPart ·) = true)
    (rest : String) : (t ++ rest).toList.head?.all (!Identifier.isPart ·) = true := by
  obtain ⟨c, hc, hpart⟩ := (Option.any_eq_true ..).1 ht
  rw [String.toList_append, List.head?_append, hc]
  exact hpart

section

variable {s : String} (h : ∀ c ∈ s.toList, Identifier.isPart c = true)
include h

section

variable {cs : List Char} (hcs : cs.head?.all (!Identifier.isPart ·) = true)
include hcs

theorem name_of_head : name (s.toList ++ cs) = s := by
  have hnil : cs.takeWhile Identifier.isPart = [] := by
    cases cs with
    | nil => rfl
    | cons c cs => exact List.takeWhile_cons_of_neg (by simpa using hcs)
  rw [name, List.takeWhile_append_of_pos h, hnil, List.append_nil, String.ofList_toList]

theorem pastName_of_head : pastName (s.toList ++ cs) = cs := by
  rw [pastName, List.dropWhile_append_of_pos h]
  cases cs with
  | nil => rfl
  | cons c cs => exact List.dropWhile_cons_of_neg (by simpa using hcs)

end

theorem name_toList : name s.toList = s := by
  have hs := @name_of_head s h [] rfl
  rwa [List.append_nil] at hs

variable {t : String} (ht : t.toList.head?.any (!Identifier.isPart ·) = true) (rest : String)
include ht

theorem name_append : name (s ++ (t ++ rest)).toList = s := by
  rw [String.toList_append]
  exact name_of_head h (head?_append ht rest)

theorem pastName_append : pastName (s ++ (t ++ rest)).toList = (t ++ rest).toList := by
  rw [String.toList_append]
  exact pastName_of_head h (head?_append ht rest)

end

variable {d : Dialect}

theorem effect?_of_form (i : Nat) {f : String × (List Char → Option Effect)}
    (hform : (forms d)[i]? = some f) {text rest : String} (htext : text = f.1 ++ rest)
    (hbefore : ∀ g ∈ (forms d).take i, g.1.toList.isPrefixOf? (f.1.toList ++ rest.toList) = none)
    {e : Effect} (hread : f.2 rest.toList = some e) : effect? d text = some e := by
  obtain ⟨hi, hf⟩ := List.getElem?_eq_some_iff.1 hform
  have hsplit : forms d = (forms d).take i ++ f :: (forms d).drop (i + 1) := by
    rw [← hf, List.getElem_cons_drop, List.take_append_drop]
  have hnone : (((forms d).take i).findSome? fun g =>
      g.1.toList.isPrefixOf? text.toList >>= g.2) = none := by
    rw [List.findSome?_eq_none_iff]
    intro g hg
    rw [htext, String.toList_append, hbefore g hg]
    rfl
  rw [effect?, hsplit, List.findSome?_append, hnone, List.findSome?_cons, htext, isPrefixOf?_append]
  simp [hread]

end Statement

def Ddl.Plain : Ddl → Prop
  | .createCounter | .seedCounter | .dropCounter => True
  | .createLogTable table _ => Identifier.valid table = true
  | .replaceFunction function _ | .dropFunction function =>
    ∀ c ∈ function.toList, Identifier.isPart c = true
  | .createTrigger t => (∃ table e, Identifier.valid table = true ∧ t.name = triggerName table e) ∧
      Identifier.valid t.watchedTable = true
  | .dropTrigger trigger watchedTable => (∀ c ∈ trigger.toList, Identifier.isPart c = true) ∧
      Identifier.valid watchedTable = true

theorem isPart_toLower {c : Char} (h : Identifier.isPart c = true) :
    Identifier.isPart c.toLower = true := by
  have hall : ∀ n < 128, Identifier.isPart (Char.ofNat n) = true →
      Identifier.isPart (Char.ofNat n).toLower = true := by decide
  have hc := hall c.toNat (Identifier.ascii_of_isPart h)
  rw [Char.ofNat_toNat] at hc
  exact hc h

theorem toList_triggerName {table : String} (h : Identifier.valid table = true) (e : EventType) :
    (triggerName table e).toList =
      "isync_".toList ++ (table.toList.map Char.toLower ++ ("_".toList ++ e.name.toList)) := by
  have hlower : (Text.lowercase table).toList = table.toList.map Char.toLower := by
    rw [Text.lowercase, lowerAfter_ascii (Identifier.ascii_of_valid h), String.toList_ofList]
  have htext : triggerName table e = "isync_" ++ Text.lowercase table ++ "_" ++ e.name := rfl
  simp only [htext, String.toList_append, hlower, List.append_assoc]

theorem isPart_triggerName {table : String} (h : Identifier.valid table = true) (e : EventType) :
    ∀ c ∈ (triggerName table e).toList, Identifier.isPart c = true := by
  have hlead : "isync_".toList.all Identifier.isPart = true := rfl
  have hend : ("_".toList ++ e.name.toList).all Identifier.isPart = true := by cases e <;> rfl
  intro c hc
  rw [toList_triggerName h] at hc
  rcases List.mem_append.1 hc with hc | hc
  · exact List.all_eq_true.1 hlead c hc
  rcases List.mem_append.1 hc with hc | hc
  · obtain ⟨b, hb, rfl⟩ := List.mem_map.1 hc
    exact isPart_toLower (Identifier.isPart_of_valid h b hb)
  · exact List.all_eq_true.1 hend c hc

theorem isPart_functionName {table : String} (h : Identifier.valid table = true) (e : EventType) :
    ∀ c ∈ (functionName table e).toList, Identifier.isPart c = true := by
  have hend : "_fn".toList.all Identifier.isPart = true := rfl
  have htext : functionName table e = triggerName table e ++ "_fn" := rfl
  intro c hc
  rw [htext, String.toList_append] at hc
  rcases List.mem_append.1 hc with hc | hc
  · exact isPart_triggerName h e c hc
  · exact List.all_eq_true.1 hend c hc

namespace Ddl

open Statement

variable {d : Dialect}

theorem renderInsert_eq (c : Capture) (sequence : String) : renderInsert c sequence =
    "    INSERT INTO " ++ c.logTable ++ " (" ++ ", ".intercalate (c.sequenceColumn :: c.columns) ++
      ")\n    VALUES (" ++ ", ".intercalate (sequence :: c.values) ++ ");\n" := rfl

theorem renderTriggerHead_eq (t : CaptureTrigger) : renderTriggerHead t =
    t.name ++ " AFTER " ++ renderEvent t.capture.eventType ++ " ON " ++ t.watchedTable ++
      " FOR EACH ROW" := rfl

theorem render_createLogTable (table : String) (columns : List LogColumn) :
    (createLogTable table columns).render d = "CREATE TABLE IF NOT EXISTS " ++ table ++ " (" ++
      ", ".intercalate (columns.map (renderColumn d)) ++ ")" := by cases d <;> rfl

theorem render_replaceFunction (function : String) (c : Capture) :
    (replaceFunction function c).render d = "CREATE OR REPLACE FUNCTION " ++ function ++
      "() RETURNS TRIGGER AS $$\nBEGIN\n" ++ renderInsert c ("nextval('" ++ counterName ++ "')") ++
      "    RETURN NULL;\nEND;\n$$ LANGUAGE plpgsql" := by cases d <;> rfl

theorem render_createTrigger_postgres (t : CaptureTrigger) :
    (createTrigger t).render .postgres = "CREATE TRIGGER " ++ renderTriggerHead t ++
      " EXECUTE PROCEDURE " ++ functionName t.watchedTable t.capture.eventType ++ "()" := rfl

theorem render_dropTrigger_postgres (trigger table : String) :
    (dropTrigger trigger table).render .postgres =
      "DROP TRIGGER IF EXISTS " ++ trigger ++ " ON " ++ table := rfl

theorem effect?_createLogTable {table : String} (h : Identifier.valid table = true)
    (columns : List LogColumn) : effect? d ((createLogTable table columns).render d) =
      some (.create true (.table table)) := by
  have htext := render_createLogTable (d := d) table columns
  simp only [String.append_assoc] at htext
  refine effect?_of_form 0 rfl htext (by simp) ?_
  simp only [name_append (Identifier.isPart_of_valid h) (t := " (") rfl]

theorem effect?_replaceFunction {function : String}
    (h : ∀ c ∈ function.toList, Identifier.isPart c = true) (c : Capture) :
    effect? d ((replaceFunction function c).render d) = some (.create true (.function function)) := by
  have htext := render_replaceFunction (d := d) function c
  simp only [String.append_assoc] at htext
  refine effect?_of_form 2 rfl htext ?_ ?_
  · simp only [forms, List.take, List.forall_mem_cons]
    exact ⟨rfl, rfl, nofun⟩
  · simp only [name_append h (t := "() RETURNS TRIGGER AS $$\nBEGIN\n") rfl]

theorem isPart_renderEvent (e : EventType) :
    ∀ c ∈ (renderEvent e).toList, Identifier.isPart c = true := by
  refine List.all_eq_true.1 ?_
  cases e <;> rfl

theorem createdTrigger?_head {t : CaptureTrigger}
    (htrigger : ∀ c ∈ t.name.toList, Identifier.isPart c = true)
    (htable : ∀ c ∈ t.watchedTable.toList, Identifier.isPart c = true) (rest : String) :
    createdTrigger? d (renderTriggerHead t ++ rest).toList =
      some (triggerObject d t.name t.watchedTable) := by
  have htext : renderTriggerHead t ++ rest = t.name ++ (" AFTER " ++
      (renderEvent t.capture.eventType ++ (" ON " ++ (t.watchedTable ++ (" FOR EACH ROW" ++ rest))))) := by
    rw [renderTriggerHead_eq]
    simp only [String.append_assoc]
  rw [htext, createdTrigger?, pastName_append htrigger rfl, name_append htrigger rfl,
    isPrefixOf?_append]
  simp only [Option.bind_eq_bind, Option.bind_some]
  rw [pastName_append (isPart_renderEvent _) rfl, isPrefixOf?_append, Option.bind_some,
    name_append htable rfl]
  rfl

theorem effect?_createTrigger {t : CaptureTrigger} {table : String} {e : EventType}
    (htable : Identifier.valid table = true) (hname : t.name = triggerName table e)
    (hwatched : Identifier.valid t.watchedTable = true) :
    effect? d ((createTrigger t).render d) =
      some (.create (d ≠ .postgres) (triggerObject d t.name t.watchedTable)) := by
  have hhead := createdTrigger?_head (d := d) (hname ▸ isPart_triggerName htable e)
    (Identifier.isPart_of_valid hwatched)
  have hguarded {b : String} (hd : d ≠ .postgres) (htext : (createTrigger t).render d =
      "CREATE TRIGGER IF NOT EXISTS " ++ (renderTriggerHead t ++ b)) :
      effect? d ((createTrigger t).render d) =
        some (.create (d ≠ .postgres) (triggerObject d t.name t.watchedTable)) := by
    refine effect?_of_form 3 rfl htext ?_ ?_
    · simp only [forms, List.take, List.forall_mem_cons]
      exact ⟨rfl, rfl, rfl, nofun⟩
    · simp only [hhead, Option.map_some, decide_eq_true hd]
  cases d with
  | sqlite =>
      refine hguarded nofun (b := "\nBEGIN\n    UPDATE " ++ (counterName ++
        (" SET value = value + 1 WHERE id = 1;\n" ++ (renderInsert t.capture
          ("(SELECT value FROM " ++ counterName ++ " WHERE id = 1)") ++ "END")))) ?_
      simp only [← String.append_assoc]
      rfl
  | mySql =>
      refine hguarded nofun (b := "\nBEGIN\n    UPDATE " ++ (counterName ++
        (" SET id = LAST_INSERT_ID(id + 1);\n" ++ (renderInsert t.capture "LAST_INSERT_ID()" ++
          "END")))) ?_
      simp only [← String.append_assoc]
      rfl
  | postgres =>
      have htext := render_createTrigger_postgres t
      have hstart : ∃ cs, (renderTriggerHead t).toList = 'i' :: cs := by
        simp only [renderTriggerHead_eq, String.toList_append, hname, toList_triggerName htable, List.append_assoc]
        exact ⟨_, rfl⟩
      obtain ⟨cs, hstart⟩ := hstart
      simp only [String.append_assoc] at htext
      refine effect?_of_form 4 rfl htext ?_ ?_
      · rw [String.toList_append, hstart]
        simp only [forms, List.take, List.forall_mem_cons]
        exact ⟨rfl, rfl, rfl, rfl, nofun⟩
      · simp only [hhead]
        rfl

theorem effect?_dropTrigger {trigger watchedTable : String}
    (htrigger : ∀ c ∈ trigger.toList, Identifier.isPart c = true)
    (hwatched : Identifier.valid watchedTable = true) :
    effect? d ((dropTrigger trigger watchedTable).render d) =
      some (.drop (triggerObject d trigger watchedTable)) := by
  have hbefore (cs : List Char) : ∀ g ∈ (forms d).take 10,
      g.1.toList.isPrefixOf? ("DROP TRIGGER IF EXISTS ".toList ++ cs) = none := by
    simp only [forms, List.take, List.forall_mem_cons]
    exact ⟨rfl, rfl, rfl, rfl, rfl, rfl, rfl, rfl, rfl, rfl, nofun⟩
  by_cases hd : d = .postgres
  · subst hd
    have htext := render_dropTrigger_postgres trigger watchedTable
    simp only [String.append_assoc] at htext
    refine effect?_of_form 10 rfl htext (hbefore _) ?_
    simp only [droppedTrigger?, if_true, pastName_append htrigger (t := " ON ") rfl,
      name_append htrigger (t := " ON ") rfl, isPrefixOf?_append, Option.map_some,
      name_toList (Identifier.isPart_of_valid hwatched)]
  · have htext : (dropTrigger trigger watchedTable).render d = "DROP TRIGGER IF EXISTS " ++ trigger := by
      cases d <;> first | rfl | exact absurd rfl hd
    refine effect?_of_form 10 rfl htext (hbefore _) ?_
    simp only [droppedTrigger?, if_neg hd, name_toList htrigger, triggerObject, Option.map_some]

theorem effect?_dropFunction {function : String}
    (h : ∀ c ∈ function.toList, Identifier.isPart c = true) :
    effect? d ((dropFunction function).render d) = some (.drop (.function function)) := by
  have htext : (dropFunction function).render d = "DROP FUNCTION IF EXISTS " ++ function ++ "()" := by
    cases d <;> rfl
  rw [String.append_assoc] at htext
  refine effect?_of_form 9 rfl htext ?_ ?_
  · simp only [forms, List.take, List.forall_mem_cons]
    exact ⟨rfl, rfl, rfl, rfl, rfl, rfl, rfl, rfl, rfl, nofun⟩
  · have hname := name_append h (t := "()") rfl ""
    rw [String.append_empty] at hname
    simp only [hname]

/-- A statement of capture says what it is meant to. -/
theorem effect?_render {s : Ddl} (h : s.Plain) : effect? d (s.render d) = some (s.effect d) := by
  cases s with
  | createCounter | seedCounter | dropCounter => cases d <;> decide +kernel
  | createLogTable table columns => exact effect?_createLogTable h columns
  | replaceFunction function c => exact effect?_replaceFunction h c
  | createTrigger t =>
      obtain ⟨⟨table, e, htable, hname⟩, hwatched⟩ := h
      exact effect?_createTrigger htable hname hwatched
  | dropTrigger trigger watchedTable => exact effect?_dropTrigger h.1 h.2
  | dropFunction function => exact effect?_dropFunction h

theorem effects?_render {ss : List Ddl} (h : ∀ s ∈ ss, s.Plain) :
    effects? d (ss.map (render d)) = some (ss.map (effect d)) := by
  induction ss with
  | nil => rfl
  | cons s ss ih =>
      obtain ⟨hs, hss⟩ := List.forall_mem_cons.1 h
      rw [effects?, List.map_cons, List.mapM_cons, effect?_render hs, ← effects?, ih hss]
      rfl

end Ddl

end ChangeFeed
