import ChangeFeed.Log.Sql
import ChangeFeed.Proofs.Capture.Columns
import ChangeFeed.Proofs.Capture.Writable

namespace ChangeFeed

open List (forall_mem_nil)
open Identifier

inductive Fragment where
  /-- Words and punctuation. -/
  | phrase (text : String)
  /-- A name, written as it is. -/
  | name (text : String)

namespace Fragment

def text : Fragment → String
  | phrase text | name text => text

def join : List Fragment → String
  | [] => ""
  | f :: fs => f.text ++ join fs

def listed : List (List Fragment) → List Fragment
  | [] => []
  | [fs] => fs
  | fs :: gs :: rest => fs ++ phrase ", " :: listed (gs :: rest)

@[simp] theorem join_append (fs gs : List Fragment) : join (fs ++ gs) = join fs ++ join gs := by
  induction fs with
  | nil => simp [join]
  | cons f fs ih => simp [join, ih, String.append_assoc]

theorem join_listed (l : List (List Fragment)) : join (listed l) = ", ".intercalate (l.map join) := by
  induction l with
  | nil => rfl
  | cons fs l ih =>
      cases l with
      | nil => simp [listed]
      | cons gs rest =>
          simp only [listed, join_append, join, ih, text, List.map_cons, String.intercalate_cons_cons,
            String.append_assoc]

theorem forall_mem_listed {p : Fragment → Prop} (hcomma : p (phrase ", ")) {l : List (List Fragment)}
    (h : ∀ fs ∈ l, ∀ f ∈ fs, p f) : ∀ f ∈ listed l, p f := by
  induction l with
  | nil => nofun
  | cons fs l ih =>
      obtain ⟨hfs, hl⟩ := List.forall_mem_cons.1 h
      cases l with
      | nil => exact hfs
      | cons gs rest => exact List.forall_mem_append.2 ⟨hfs, List.forall_mem_cons.2 ⟨hcomma, ih hl⟩⟩

/-- The phrases of which statements are made, whatever they are about. -/
def phrases : List String := [
  "CREATE TABLE IF NOT EXISTS ", "CREATE SEQUENCE IF NOT EXISTS ", "CREATE OR REPLACE FUNCTION ",
  "CREATE TRIGGER ", "CREATE TRIGGER IF NOT EXISTS ", "DROP TABLE IF EXISTS ",
  "DROP SEQUENCE IF EXISTS ", "DROP FUNCTION IF EXISTS ", "DROP TRIGGER IF EXISTS ",
  " (id INTEGER PRIMARY KEY CHECK (id = 1), value INTEGER NOT NULL)", " (id BIGINT NOT NULL)",
  "INSERT INTO ", " (id) SELECT 0 FROM DUAL WHERE NOT EXISTS (SELECT 1 FROM ",
  "INSERT OR IGNORE INTO ", " (id, value) VALUES (1, 0)",
  " INTEGER PRIMARY KEY", " BIGINT PRIMARY KEY", " BIGINT NOT NULL PRIMARY KEY", " INTEGER",
  " INTEGER NOT NULL", " BIGINT", " BIGINT NOT NULL", " INT NOT NULL", " TEXT", " TEXT NOT NULL",
  " VARCHAR(255)", " VARCHAR(255) NOT NULL",
  "() RETURNS TRIGGER AS $$\nBEGIN\n", "    RETURN NULL;\nEND;\n$$ LANGUAGE plpgsql",
  " AFTER ", "INSERT", "UPDATE", "DELETE", " ON ", " FOR EACH ROW", "\nBEGIN\n    UPDATE ", "END",
  " EXECUTE PROCEDURE ", "()", " SET value = value + 1 WHERE id = 1;\n",
  " SET id = LAST_INSERT_ID(id + 1);\n", "nextval('", "')", "(SELECT value FROM ",
  " WHERE id = 1)", "LAST_INSERT_ID()",
  "    INSERT INTO ", " (", ")\n    VALUES (", ");\n", "NEW.", "OLD.", "0", "1", "2", ", ", ")",
  "SELECT ", " FROM ", " WHERE ", " > ?1 ORDER BY ", " LIMIT ?2", "DELETE FROM ", " IN (", "?",
  "SELECT COUNT(*) FROM "]

/-- A known phrase, or a plain name. -/
def Harmless : Fragment → Prop
  | phrase text => text ∈ phrases
  | name text => IsPlain text

theorem harmless_phrase {text : String} (h : phrases.contains text = true) : (phrase text).Harmless :=
  List.contains_iff_mem.1 h

structure Spells (fs : List Fragment) (text : String) : Prop where
  join_eq : join fs = text
  harmless : ∀ f ∈ fs, f.Harmless

end Fragment

open Fragment

namespace Ddl

def columnPieces (d : Dialect) (c : LogColumn) : List Fragment :=
  [name c.name, phrase (LogColumn.declared d c.role)]

def insertPieces (c : Capture) (sequence : List Fragment) : List Fragment :=
  [phrase "    INSERT INTO ", name c.logTable, phrase " ("] ++
    listed ((c.sequenceColumn :: c.columns).map fun column => [name column]) ++
    [phrase ")\n    VALUES ("] ++
    listed (sequence :: c.copied.map (fun p => [phrase (rowAlias c.eventType ++ "."), name p.2]) ++
      [[phrase (toString c.eventType.code)]]) ++
    [phrase ");\n"]

def triggerHeadPieces (t : CaptureTrigger) : List Fragment :=
  [name t.name, phrase " AFTER ", phrase (renderEvent t.capture.eventType), phrase " ON ",
    name t.watchedTable, phrase " FOR EACH ROW"]

/-- The text of a statement, taken apart. -/
def pieces : Dialect → Ddl → List Fragment
  | .sqlite, createCounter =>
    [phrase "CREATE TABLE IF NOT EXISTS ", name counterName,
      phrase " (id INTEGER PRIMARY KEY CHECK (id = 1), value INTEGER NOT NULL)"]
  | .postgres, createCounter => [phrase "CREATE SEQUENCE IF NOT EXISTS ", name counterName]
  | .mySql, createCounter =>
    [phrase "CREATE TABLE IF NOT EXISTS ", name counterName, phrase " (id BIGINT NOT NULL)"]
  | .mySql, seedCounter =>
    [phrase "INSERT INTO ", name counterName,
      phrase " (id) SELECT 0 FROM DUAL WHERE NOT EXISTS (SELECT 1 FROM ", name counterName, phrase ")"]
  | _, seedCounter =>
    [phrase "INSERT OR IGNORE INTO ", name counterName, phrase " (id, value) VALUES (1, 0)"]
  | .postgres, dropCounter => [phrase "DROP SEQUENCE IF EXISTS ", name counterName]
  | _, dropCounter => [phrase "DROP TABLE IF EXISTS ", name counterName]
  | d, createLogTable table columns =>
    [phrase "CREATE TABLE IF NOT EXISTS ", name table, phrase " ("] ++
      listed (columns.map (columnPieces d)) ++ [phrase ")"]
  | _, replaceFunction function capture =>
    [phrase "CREATE OR REPLACE FUNCTION ", name function,
      phrase "() RETURNS TRIGGER AS $$\nBEGIN\n"] ++
      insertPieces capture [phrase "nextval('", name counterName, phrase "')"] ++
      [phrase "    RETURN NULL;\nEND;\n$$ LANGUAGE plpgsql"]
  | .sqlite, createTrigger t =>
    [phrase "CREATE TRIGGER IF NOT EXISTS "] ++ triggerHeadPieces t ++
      [phrase "\nBEGIN\n    UPDATE ", name counterName,
        phrase " SET value = value + 1 WHERE id = 1;\n"] ++
      insertPieces t.capture
        [phrase "(SELECT value FROM ", name counterName, phrase " WHERE id = 1)"] ++
      [phrase "END"]
  | .mySql, createTrigger t =>
    [phrase "CREATE TRIGGER IF NOT EXISTS "] ++ triggerHeadPieces t ++
      [phrase "\nBEGIN\n    UPDATE ", name counterName,
        phrase " SET id = LAST_INSERT_ID(id + 1);\n"] ++
      insertPieces t.capture [phrase "LAST_INSERT_ID()"] ++
      [phrase "END"]
  | .postgres, createTrigger t =>
    [phrase "CREATE TRIGGER "] ++ triggerHeadPieces t ++
      [phrase " EXECUTE PROCEDURE ", name (functionName t.watchedTable t.capture.eventType),
        phrase "()"]
  | .postgres, dropTrigger trigger table =>
    [phrase "DROP TRIGGER IF EXISTS ", name trigger, phrase " ON ", name table]
  | _, dropTrigger trigger _ => [phrase "DROP TRIGGER IF EXISTS ", name trigger]
  | _, dropFunction function => [phrase "DROP FUNCTION IF EXISTS ", name function, phrase "()"]

variable {d : Dialect}

theorem join_columnPieces (c : LogColumn) : join (columnPieces d c) = renderColumn d c := by
  rw [LogColumn.renderColumn_eq]
  simp [columnPieces, join, Fragment.text]

theorem join_insertPieces (c : Capture) (sequence : List Fragment) :
    join (insertPieces c sequence) = renderInsert c (join sequence) := by
  have hcolumns : (c.sequenceColumn :: c.columns).map (join ∘ fun column => [name column]) =
      c.sequenceColumn :: c.columns := by
    refine (List.map_congr_left fun column _ => ?_).trans (List.map_id _)
    exact String.append_empty
  have hvalue (p : String × String) : join [phrase (rowAlias c.eventType ++ "."), name p.2] =
      rowAlias c.eventType ++ "." ++ p.2 := by
    simp only [join, Fragment.text, String.append_empty]
  have hvalues : (sequence :: c.copied.map (fun p => [phrase (rowAlias c.eventType ++ "."), name p.2]) ++
      [[phrase (toString c.eventType.code)]]).map join = join sequence :: c.values := by
    rw [List.map_append, List.map_cons, List.map_map]
    exact congrArg (join sequence :: ·) (congrArg₂ (· ++ ·) (List.map_congr_left fun p _ => hvalue p)
      (congrArg (fun code => [code]) String.append_empty))
  rw [insertPieces, renderInsert_eq]
  simp only [join_append, join_listed, List.map_map, hcolumns, hvalues]
  simp only [join, Fragment.text, String.append_empty, String.append_assoc]

theorem join_triggerHeadPieces (t : CaptureTrigger) :
    join (triggerHeadPieces t) = renderTriggerHead t := by
  simp only [renderTriggerHead_eq, triggerHeadPieces, join, Fragment.text, String.append_empty, String.append_assoc]

theorem join_createTrigger (t : CaptureTrigger) :
    join ((createTrigger t).pieces d) = (createTrigger t).render d := by
  cases d with
  | sqlite =>
      have htext : (createTrigger t).render .sqlite = "CREATE TRIGGER IF NOT EXISTS " ++
          renderTriggerHead t ++ "\nBEGIN\n    UPDATE " ++ counterName ++
          " SET value = value + 1 WHERE id = 1;\n" ++
          renderInsert t.capture ("(SELECT value FROM " ++ counterName ++ " WHERE id = 1)") ++ "END" := rfl
      rw [htext, pieces]
      simp only [join_append, join_triggerHeadPieces, join_insertPieces]
      simp only [join, Fragment.text, String.append_empty, String.append_assoc]
  | mySql =>
      have htext : (createTrigger t).render .mySql = "CREATE TRIGGER IF NOT EXISTS " ++
          renderTriggerHead t ++ "\nBEGIN\n    UPDATE " ++ counterName ++
          " SET id = LAST_INSERT_ID(id + 1);\n" ++
          renderInsert t.capture "LAST_INSERT_ID()" ++ "END" := rfl
      rw [htext, pieces]
      simp only [join_append, join_triggerHeadPieces, join_insertPieces]
      simp only [join, Fragment.text, String.append_empty, String.append_assoc]
  | postgres =>
      rw [render_createTrigger_postgres, pieces]
      simp only [join_append, join_triggerHeadPieces]
      simp only [join, Fragment.text, String.append_empty, String.append_assoc]

theorem join_pieces (s : Ddl) : join (s.pieces d) = s.render d := by
  cases s with
  | createCounter | seedCounter | dropCounter => cases d <;> decide +kernel
  | createLogTable table columns =>
      have hpieces : (createLogTable table columns).pieces d =
          [phrase "CREATE TABLE IF NOT EXISTS ", name table, phrase " ("] ++
            listed (columns.map (columnPieces d)) ++ [phrase ")"] := by cases d <;> rfl
      rw [render_createLogTable, hpieces]
      simp only [join_append, join_listed, List.map_map, Function.comp_def, join_columnPieces]
      simp only [join, Fragment.text, String.append_empty, String.append_assoc]
  | replaceFunction function c =>
      have hpieces : (replaceFunction function c).pieces d =
          [phrase "CREATE OR REPLACE FUNCTION ", name function,
            phrase "() RETURNS TRIGGER AS $$\nBEGIN\n"] ++
            insertPieces c [phrase "nextval('", name counterName, phrase "')"] ++
            [phrase "    RETURN NULL;\nEND;\n$$ LANGUAGE plpgsql"] := by cases d <;> rfl
      rw [render_replaceFunction, hpieces]
      simp only [join_append, join_insertPieces]
      simp only [join, Fragment.text, String.append_empty, String.append_assoc]
  | createTrigger t => exact join_createTrigger t
  | dropTrigger trigger table =>
      cases d <;> simp only [pieces, join, Fragment.text, String.append_empty, ← String.append_assoc] <;> rfl
  | dropFunction function =>
      cases d <;> simp only [pieces, join, Fragment.text, String.append_empty, ← String.append_assoc] <;> rfl

theorem harmless_columnPieces {c : LogColumn} (h : IsPlain c.name) :
    ∀ f ∈ columnPieces d c, f.Harmless := by
  have hdeclared : (phrase (LogColumn.declared d c.role)).Harmless := by
    refine harmless_phrase ?_
    rcases c.role with _ | ⟨_ | _, _ | _⟩ | _ <;> cases d <;> rfl
  exact List.forall_mem_cons.2 ⟨h, List.forall_mem_singleton.2 hdeclared⟩

theorem harmless_insertPieces {c : Capture} (h : c.Writable) {sequence : List Fragment}
    (hs : ∀ f ∈ sequence, f.Harmless) : ∀ f ∈ insertPieces c sequence, f.Harmless := by
  have halias : (phrase (rowAlias c.eventType ++ ".")).Harmless :=
    harmless_phrase (by cases c.eventType <;> rfl)
  have hcode : (phrase (toString c.eventType.code)).Harmless :=
    harmless_phrase (by cases c.eventType <;> rfl)
  have hcolumns : ∀ fs ∈ (c.sequenceColumn :: c.columns).map (fun column => [name column]),
      ∀ f ∈ fs, f.Harmless := by
    simp only [List.forall_mem_map, List.forall_mem_singleton, Capture.columns, List.forall_mem_cons,
      List.forall_mem_append]
    exact ⟨h.sequenceColumn, fun p hp => (h.copied p hp).1, h.eventColumn⟩
  have hvalues : ∀ fs ∈ sequence :: c.copied.map (fun p =>
      [phrase (rowAlias c.eventType ++ "."), name p.2]) ++ [[phrase (toString c.eventType.code)]],
      ∀ f ∈ fs, f.Harmless := by
    simp only [List.forall_mem_append, List.forall_mem_cons, List.forall_mem_map]
    exact ⟨⟨hs, fun p hp => ⟨halias, (h.copied p hp).2, forall_mem_nil _⟩⟩,
      ⟨hcode, forall_mem_nil _⟩, forall_mem_nil _⟩
  simp only [insertPieces, List.forall_mem_append, List.forall_mem_cons]
  refine ⟨⟨⟨⟨⟨harmless_phrase rfl, h.logTable, harmless_phrase rfl, forall_mem_nil _⟩, ?_⟩,
    harmless_phrase rfl, forall_mem_nil _⟩, ?_⟩, harmless_phrase rfl, forall_mem_nil _⟩
  · exact forall_mem_listed (harmless_phrase rfl) hcolumns
  · exact forall_mem_listed (harmless_phrase rfl) hvalues

theorem plain_counterName : IsPlain counterName := valid_iff.1 rfl

theorem harmless_createTrigger {t : CaptureTrigger} (hname : IsPlain t.name)
    (htable : IsPlain t.watchedTable) (h : t.capture.Writable) :
    ∀ f ∈ (createTrigger t).pieces d, f.Harmless := by
  have hevent : (phrase (renderEvent t.capture.eventType)).Harmless :=
    harmless_phrase (by cases t.capture.eventType <;> rfl)
  have hhead : ∀ f ∈ triggerHeadPieces t, f.Harmless := by
    simp only [triggerHeadPieces, List.forall_mem_cons]
    exact ⟨hname, harmless_phrase rfl, hevent, harmless_phrase rfl, htable, harmless_phrase rfl,
      forall_mem_nil _⟩
  cases d with
  | sqlite =>
      simp only [pieces, List.forall_mem_append, List.forall_mem_cons]
      refine ⟨⟨⟨⟨⟨harmless_phrase rfl, forall_mem_nil _⟩, hhead⟩, harmless_phrase rfl, plain_counterName,
        harmless_phrase rfl, forall_mem_nil _⟩, harmless_insertPieces h ?_⟩, harmless_phrase rfl,
        forall_mem_nil _⟩
      simp only [List.forall_mem_cons]
      exact ⟨harmless_phrase rfl, plain_counterName, harmless_phrase rfl, forall_mem_nil _⟩
  | mySql =>
      simp only [pieces, List.forall_mem_append, List.forall_mem_cons]
      refine ⟨⟨⟨⟨⟨harmless_phrase rfl, forall_mem_nil _⟩, hhead⟩, harmless_phrase rfl, plain_counterName,
        harmless_phrase rfl, forall_mem_nil _⟩, harmless_insertPieces h ?_⟩, harmless_phrase rfl,
        forall_mem_nil _⟩
      exact List.forall_mem_singleton.2 (harmless_phrase rfl)
  | postgres =>
      simp only [pieces, List.forall_mem_append, List.forall_mem_cons]
      exact ⟨⟨⟨harmless_phrase rfl, forall_mem_nil _⟩, hhead⟩, harmless_phrase rfl,
        plain_functionName htable _, harmless_phrase rfl, forall_mem_nil _⟩

theorem harmless_pieces {s : Ddl} (h : s.Writable) : ∀ f ∈ s.pieces d, f.Harmless := by
  cases s with
  | createCounter | seedCounter | dropCounter =>
      cases d <;> simp [pieces, Harmless, phrases, plain_counterName]
  | createLogTable table columns =>
      have hpieces : (createLogTable table columns).pieces d =
          [phrase "CREATE TABLE IF NOT EXISTS ", name table, phrase " ("] ++
            listed (columns.map (columnPieces d)) ++ [phrase ")"] := by cases d <;> rfl
      have hcolumns := forall_mem_listed (harmless_phrase rfl)
        (List.forall_mem_map.2 fun c hc => harmless_columnPieces (d := d) (h.2 c hc))
      simp only [hpieces, List.forall_mem_append, List.forall_mem_cons]
      exact ⟨⟨⟨harmless_phrase rfl, h.1, harmless_phrase rfl, forall_mem_nil _⟩, hcolumns⟩,
        harmless_phrase rfl, forall_mem_nil _⟩
  | replaceFunction function c =>
      have hpieces : (replaceFunction function c).pieces d =
          [phrase "CREATE OR REPLACE FUNCTION ", name function,
            phrase "() RETURNS TRIGGER AS $$\nBEGIN\n"] ++
            insertPieces c [phrase "nextval('", name counterName, phrase "')"] ++
            [phrase "    RETURN NULL;\nEND;\n$$ LANGUAGE plpgsql"] := by cases d <;> rfl
      simp only [hpieces, List.forall_mem_append, List.forall_mem_cons]
      refine ⟨⟨⟨harmless_phrase rfl, h.1, harmless_phrase rfl, forall_mem_nil _⟩,
        harmless_insertPieces h.2 ?_⟩,
        harmless_phrase rfl, forall_mem_nil _⟩
      simp only [List.forall_mem_cons]
      exact ⟨harmless_phrase rfl, plain_counterName, harmless_phrase rfl, forall_mem_nil _⟩
  | createTrigger t => exact harmless_createTrigger h.1 h.2.1 h.2.2
  | dropTrigger trigger table =>
      cases d <;> simp only [pieces, List.forall_mem_cons]
      · exact ⟨harmless_phrase rfl, h.1, forall_mem_nil _⟩
      · exact ⟨harmless_phrase rfl, h.1, harmless_phrase rfl, h.2, forall_mem_nil _⟩
      · exact ⟨harmless_phrase rfl, h.1, forall_mem_nil _⟩
  | dropFunction function =>
      cases d <;> simp only [pieces, List.forall_mem_cons] <;>
        exact ⟨harmless_phrase rfl, h, harmless_phrase rfl, forall_mem_nil _⟩

theorem spells_render {s : Ddl} (h : s.Writable) : Spells (s.pieces d) (s.render d) :=
  ⟨join_pieces s, harmless_pieces h⟩

end Ddl

namespace SqlLog

variable {m : LogModel}

def windowPieces (m : LogModel) : List Fragment :=
  [phrase "SELECT "] ++ listed ((readColumns m).map fun column => [name column]) ++
    [phrase " FROM ", name m.logTable, phrase " WHERE ", name m.sequenceColumn,
      phrase " > ?1 ORDER BY ", name m.sequenceColumn, phrase " LIMIT ?2"]

def deletePieces (m : LogModel) (count : Nat) : List Fragment :=
  [phrase "DELETE FROM ", name m.logTable, phrase " WHERE ", name m.sequenceColumn, phrase " IN ("] ++
    listed (List.replicate count [phrase "?"]) ++ [phrase ")"]

def countPieces (m : LogModel) : List Fragment := [phrase "SELECT COUNT(*) FROM ", name m.logTable]

theorem spells_windowQuery (h : m.Writable) : Spells (windowPieces m) (windowQuery m).text where
  join_eq := by
    have hcolumns : (readColumns m).map (join ∘ fun column => [name column]) = readColumns m := by
      refine (List.map_congr_left fun column _ => ?_).trans (List.map_id _)
      exact String.append_empty
    have htext : (windowQuery m).text = "SELECT " ++ ", ".intercalate (readColumns m) ++ " FROM " ++
        m.logTable ++ " WHERE " ++ m.sequenceColumn ++ " > ?1 ORDER BY " ++ m.sequenceColumn ++
        " LIMIT ?2" := rfl
    simp only [windowPieces, htext, join_append, join_listed, List.map_map, hcolumns]
    simp only [join, Fragment.text, String.append_empty, String.append_assoc]
  harmless := by
    have hcolumns : ∀ fs ∈ (readColumns m).map (fun column => [name column]), ∀ f ∈ fs, f.Harmless := by
      simp only [List.forall_mem_map, List.forall_mem_singleton, readColumns, List.forall_mem_cons,
        LogModel.logColumns]
      refine ⟨h.columns.1, h.columns.2, fun c hc => ?_⟩
      exact ((LogModel.forall_mem_columnPairs h.valid).2 h.ids c hc).1
    simp only [windowPieces, List.forall_mem_append, List.forall_mem_cons]
    exact ⟨⟨⟨harmless_phrase rfl, forall_mem_nil _⟩, forall_mem_listed (harmless_phrase rfl) hcolumns⟩,
      harmless_phrase rfl, h.tables.1, harmless_phrase rfl, h.columns.1, harmless_phrase rfl,
      h.columns.1, harmless_phrase rfl, forall_mem_nil _⟩

theorem spells_deleteQuery (h : m.Writable) (count : Nat) :
    Spells (deletePieces m count) (deleteQuery m count).text where
  join_eq := by
    have htext : (deleteQuery m count).text = "DELETE FROM " ++ m.logTable ++ " WHERE " ++
        m.sequenceColumn ++ " IN (" ++ ", ".intercalate (List.replicate count "?") ++ ")" := rfl
    have hmark : join [phrase "?"] = "?" := String.append_empty
    simp only [deletePieces, htext, join_append, join_listed, List.map_replicate, hmark]
    simp only [join, Fragment.text, String.append_empty, String.append_assoc]
  harmless := by
    have hmarks : ∀ fs ∈ List.replicate count [phrase "?"], ∀ f ∈ fs, f.Harmless := by
      intro fs hfs
      obtain rfl := List.eq_of_mem_replicate hfs
      exact List.forall_mem_singleton.2 (harmless_phrase rfl)
    simp only [deletePieces, List.forall_mem_append, List.forall_mem_cons]
    exact ⟨⟨⟨harmless_phrase rfl, h.tables.1, harmless_phrase rfl, h.columns.1, harmless_phrase rfl,
      forall_mem_nil _⟩, forall_mem_listed (harmless_phrase rfl) hmarks⟩, harmless_phrase rfl,
      forall_mem_nil _⟩

theorem spells_countQuery (h : m.Writable) : Spells (countPieces m) (countQuery m).text where
  join_eq := by
    have htext : (countQuery m).text = "SELECT COUNT(*) FROM " ++ m.logTable := rfl
    simp only [countPieces, htext, join, Fragment.text, String.append_empty]
  harmless := List.forall_mem_cons.2 ⟨harmless_phrase rfl, List.forall_mem_singleton.2 h.tables.1⟩

end SqlLog

namespace LogModel

/-- Whatever is asked about a description fails, and always as an invalid model. The error is that of the
check, which comes before any text is put together or a database is looked at. -/
structure Refused (m : LogModel) (e : ModelError) : Prop where
  createLogTable : Capture.createLogTable m = .error e
  createTrigger : ∀ d t, Capture.createTrigger d m t = .error e
  dropTrigger : ∀ d t, Capture.dropTrigger d m t = .error e
  install : ∀ {models d strategy}, m ∈ models → strategy ≠ .dontCreate →
    ∃ e', Capture.install d models strategy = .error e' ∧ (Failure.model e').kind = .invalidModel
  uninstall : ∀ {models d}, m ∈ models →
    ∃ e', Capture.uninstall d models = .error e' ∧ (Failure.model e').kind = .invalidModel
  fetch : ∀ log after limit, SqlLog.store.fetch m after limit log = .error (.model e) log
  delete : ∀ log ids, SqlLog.store.delete m ids log = .error (.model e) log
  pendingRows : ∀ db, SqlLog.pendingRows db m = .error (.model e)
  kind : (Failure.model e).kind = .invalidModel

variable {m : LogModel}

theorem refused (h : ¬ m.Writable) : ∃ e, m.Refused e := by
  obtain ⟨e, he⟩ := validateNames_error h
  refine ⟨e, ⟨?_, fun d t => ?_, fun d t => ?_, fun hm hs => ?_, fun hm => ?_, fun log after limit => ?_,
    fun log ids => ?_, fun db => ?_, rfl⟩⟩
  · rw [Capture.createLogTable, he]
    rfl
  · rw [Capture.createTrigger, he]
    rfl
  · rw [Capture.dropTrigger, he]
    rfl
  · obtain ⟨e', he'⟩ := Capture.install_error hm ⟨e, he⟩ hs
    exact ⟨e', he', rfl⟩
  · obtain ⟨e', he'⟩ := Capture.uninstall_error hm ⟨e, he⟩
    exact ⟨e', he', rfl⟩
  · have hwindow : SqlLog.window log.db m after limit = .error (.model e) := by
      rw [SqlLog.window, he]
      rfl
    show Act.ofExcept (SqlLog.window log.db m after limit) log = _
    rw [hwindow]
    rfl
  · show (Act.ofExcept (SqlLog.ofModel m.validateNames) >>= fun _ => _ : Act SqlLog Nat) log = _
    rw [he]
    rfl
  · rw [SqlLog.pendingRows, he]
    rfl

structure Accepted (m : LogModel) : Prop where
  createLogTable : Capture.createLogTable m = .ok [.createLogTable m.logTable m.tableColumns]
  createTrigger : ∀ d t, Capture.createTrigger d m t = .ok (m.creating d t)
  dropTrigger : ∀ d t, Capture.dropTrigger d m t = .ok (m.removing d t)
  window : Spells (SqlLog.windowPieces m) (SqlLog.windowQuery m).text
  delete : ∀ count, Spells (SqlLog.deletePieces m count) (SqlLog.deleteQuery m count).text
  count : Spells (SqlLog.countPieces m) (SqlLog.countQuery m).text

/-- A description with a name that is not plain comes nowhere near a statement. -/
theorem splices_plain_names (m : LogModel) :
    (¬ m.Writable → ∃ e, m.Refused e) ∧ (m.Writable → m.Accepted) ∧
      ∀ d l, Capture.Yields d l → ∀ s ∈ l, Spells (s.pieces d) (s.render d) := by
  refine ⟨refused, fun h => ?_, fun d l hl s hs => Ddl.spells_render (hl.writable s hs)⟩
  have hm := validateNames_eq_ok_iff.2 h
  exact ⟨Capture.createLogTable_ok hm, fun d t => Capture.createTrigger_ok hm t,
    fun d t => Capture.dropTrigger_ok hm t, SqlLog.spells_windowQuery h, SqlLog.spells_deleteQuery h,
    SqlLog.spells_countQuery h⟩

end LogModel

end ChangeFeed

namespace ChangeFeed.Sample

def smugglingLog : LogModel :=
  { placeLog with
    ids := [{
      entityType := "Place"
      logColumns := ["place_id"]
      watchedColumns := ["id", "id); DROP TABLE place; --"] }] }

theorem splices_placeLog : (∃ e, smugglingLog.Refused e) ∧ placeLog.Accepted ∧
    ∃ l, Capture.install .postgres [placeLog] .dropCreate = .ok l ∧ l.length = 17 ∧
      ∀ s ∈ l, Fragment.Spells (s.pieces .postgres) (s.render .postgres) := by
  have hbad : ¬ smugglingLog.Writable := fun h => by
    cases LogModel.validateNames_eq_ok_iff.2 h
  have hgood : placeLog.Writable := LogModel.validateNames_eq_ok_iff.1 rfl
  obtain ⟨hrefused, -, -⟩ := LogModel.splices_plain_names smugglingLog
  obtain ⟨-, haccepted, hyields⟩ := LogModel.splices_plain_names placeLog
  have hinstall : Capture.install .postgres [placeLog] .dropCreate = .ok (Capture.setup .postgres ++
      [placeLog].flatMap (·.installation .postgres .dropCreate)) := rfl
  exact ⟨hrefused hbad, haccepted hgood, _, hinstall, rfl, hyields _ _ (.install hinstall)⟩

end ChangeFeed.Sample
