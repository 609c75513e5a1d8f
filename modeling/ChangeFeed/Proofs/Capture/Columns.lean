import ChangeFeed.Proofs.Capture.Effect
import ChangeFeed.Proofs.Capture.Install

namespace ChangeFeed

namespace Statement

def members (cs : List Char) : List (List Char) := (cs.splitOn ',').map (·.dropWhile (· = ' '))

def members? (lead : String) (line : List Char) : Option (List (List Char)) := do
  let table ← lead.toList.isPrefixOf? line
  let list ← " (".toList.isPrefixOf? (pastName table)
  return members list

/-- The columns that a line lists behind the name of a table, if it begins as given. -/
def columns? (lead : String) (line : List Char) : Option (List String) :=
  (members? lead line).map (·.map name)

def insertLead : String := "    INSERT INTO "

def columnLists (lead : String) (text : List Char) : List (List String) :=
  (text.splitOn '\n').filterMap (columns? lead)

theorem columnLists_line {lead : String} {line : List Char} (h : '\n' ∉ line) :
    columnLists lead line = (columns? lead line).toList := by
  rw [columnLists, List.splitOn_eq_singleton h, List.filterMap_cons]
  cases columns? lead line <;> rfl

theorem columnLists_append (lead : String) (front rest : List Char) :
    columnLists lead (front ++ '\n' :: rest) = columnLists lead front ++ columnLists lead rest := by
  rw [columnLists, List.splitOn, List.splitOnP_append_cons _ _ rfl, List.filterMap_append]
  rfl

theorem not_mem_of_isPart {s : String} (h : ∀ c ∈ s.toList, Identifier.isPart c = true) {k : Char}
    (hk : Identifier.isPart k = false) : k ∉ s.toList := by
  intro hmem
  rw [h k hmem] at hk
  cases hk

/-- A text that names a column first, and is one member of a list on one line. -/
structure Names (column text : String) : Prop where
  valid : Identifier.valid column = true
  front : ∃ rest : String, text = column ++ rest ∧
    rest.toList.head?.all (!Identifier.isPart ·) = true
  comma : ',' ∉ text.toList
  line : '\n' ∉ text.toList

theorem names_self {column : String} (h : Identifier.valid column = true) : Names column column where
  valid := h
  front := ⟨"", by simp⟩
  comma := not_mem_of_isPart (Identifier.isPart_of_valid h) (by decide)
  line := not_mem_of_isPart (Identifier.isPart_of_valid h) (by decide)

theorem Names.dropWhile_eq {column text : String} (h : Names column text) {spaces : List Char}
    (hspaces : ∀ c ∈ spaces, c = ' ') (cs : List Char) :
    (spaces ++ (text.toList ++ cs)).dropWhile (· = ' ') = text.toList ++ cs := by
  obtain ⟨rest, rfl, -⟩ := h.front
  obtain ⟨c, tail, hc⟩ : ∃ c tail, column.toList = c :: tail := by
    cases hcolumn : column.toList with
    | nil =>
        have hv := h.valid
        rw [Identifier.valid, hcolumn] at hv
        cases hv
    | cons c tail => exact ⟨c, tail, rfl⟩
  have hspace : c ≠ ' ' := by
    rintro rfl
    exact absurd (Identifier.isPart_of_valid h.valid _ (hc ▸ List.mem_cons_self ..)) (by decide)
  rw [List.dropWhile_append_of_pos (by simpa using hspaces), String.toList_append, hc]
  exact List.dropWhile_cons_of_neg (by simpa using hspace)

theorem Names.name_eq {column text : String} (h : Names column text) {cs : List Char}
    (hcs : cs.head?.all (!Identifier.isPart ·) = true) : name (text.toList ++ cs) = column := by
  obtain ⟨rest, rfl, hrest⟩ := h.front
  have hhead : (rest.toList ++ cs).head?.all (!Identifier.isPart ·) = true := by
    rw [List.head?_append]
    cases hr : rest.toList.head? with
    | none => exact hcs
    | some c => rwa [hr] at hrest
  rw [String.toList_append, List.append_assoc]
  exact name_of_head (Identifier.isPart_of_valid h.valid) hhead

theorem head?_closing {tail : List Char} (h : tail ∈ [[], [')']]) :
    tail.head?.all (!Identifier.isPart ·) = true := by
  simp only [List.mem_cons, List.not_mem_nil, or_false] at h
  rcases h with rfl | rfl <;> rfl

theorem map_members_intercalate {α β : Type} {F : List Char → β} {φ : α → β} {f g : α → String}
    {xs : List α} (hne : xs ≠ []) (h : ∀ x ∈ xs, Names (f x) (g x))
    (hread : ∀ x ∈ xs, ∀ tail ∈ [[], [')']], F ((g x).toList ++ tail) = φ x) :
    (members ((", ".intercalate (xs.map g)).toList ++ [')'])).map F = xs.map φ := by
  have hlist (spaces : List Char) (hspaces : ∀ c ∈ spaces, c = ' ') :
      (members (spaces ++ ((", ".intercalate (xs.map g)).toList ++ [')']))).map F = xs.map φ := by
    induction xs generalizing spaces with
    | nil => exact absurd rfl hne
    | cons x xs ih =>
        obtain ⟨hx, hxs⟩ := List.forall_mem_cons.1 h
        obtain ⟨hfirst, hread⟩ := List.forall_mem_cons.1 hread
        have hcomma : ',' ∉ spaces ++ (g x).toList := by
          rw [List.mem_append, not_or]
          exact ⟨fun hc => absurd (hspaces _ hc) (by decide), hx.comma⟩
        cases xs with
        | nil =>
            rw [List.map_singleton, String.intercalate_singleton, ← List.append_assoc, members,
              List.splitOn_eq_singleton (by simpa using hcomma), List.append_assoc, List.map_singleton,
              List.map_singleton, hx.dropWhile_eq hspaces, hfirst _ (by simp), List.map_singleton]
        | cons y ys =>
            have hrest := ih (by simp) hxs hread [' '] (by simp)
            have htext : spaces ++ ((", ".intercalate ((x :: y :: ys).map g)).toList ++ [')']) =
                (spaces ++ (g x).toList) ++ ',' ::
                  ([' '] ++ ((", ".intercalate ((y :: ys).map g)).toList ++ [')'])) := by
              rw [List.map_cons, List.map_cons, String.intercalate_cons_cons]
              simp [String.toList_append]
            have hmember := hx.dropWhile_eq hspaces []
            rw [List.append_nil] at hmember
            have hvalue := hfirst [] (by simp)
            rw [List.append_nil] at hvalue
            rw [htext, members, List.splitOn_append_cons_self_of_not_mem hcomma, List.map_cons, hmember,
              ← members, List.map_cons, hvalue, hrest]
            rfl
  exact hlist [] (by simp)

theorem not_mem_intercalate {texts : List String} (h : ∀ text ∈ texts, '\n' ∉ text.toList) :
    '\n' ∉ (", ".intercalate texts).toList := by
  induction texts with
  | nil => simp
  | cons text texts ih =>
      obtain ⟨htext, htexts⟩ := List.forall_mem_cons.1 h
      cases texts with
      | nil => simpa using htext
      | cons next texts =>
          rw [String.intercalate_cons_cons]
          simpa [htext] using ih htexts

theorem map_members?_line {α β : Type} (F : List Char → β) (φ : α → β) {f g : α → String}
    {xs : List α} {table : String} (lead : String) (htable : Identifier.valid table = true)
    (hne : xs ≠ []) (h : ∀ x ∈ xs, Names (f x) (g x))
    (hread : ∀ x ∈ xs, ∀ tail ∈ [[], [')']], F ((g x).toList ++ tail) = φ x) :
    (members? lead (lead ++ (table ++ (" (" ++ (", ".intercalate (xs.map g) ++ ")")))).toList).map
      (·.map F) = some (xs.map φ) := by
  rw [members?, isPrefixOf?_append]
  simp only [Option.bind_eq_bind, Option.bind_some]
  rw [pastName_append (Identifier.isPart_of_valid htable) rfl, isPrefixOf?_append, Option.bind_some,
    String.toList_append]
  exact congrArg some (map_members_intercalate hne h hread)

theorem columns?_line {α : Type} {f g : α → String} {xs : List α} {table : String} (lead : String)
    (htable : Identifier.valid table = true) (hne : xs ≠ []) (h : ∀ x ∈ xs, Names (f x) (g x)) :
    columns? lead (lead ++ (table ++ (" (" ++ (", ".intercalate (xs.map g) ++ ")")))).toList =
      some (xs.map f) :=
  map_members?_line name f lead htable hne h fun x hx _ htail =>
    (h x hx).name_eq (head?_closing htail)

theorem not_mem_line {α : Type} {f g : α → String} {xs : List α} {lead table : String}
    (hlead : '\n' ∉ lead.toList) (htable : Identifier.valid table = true)
    (h : ∀ x ∈ xs, Names (f x) (g x)) :
    '\n' ∉ (lead ++ (table ++ (" (" ++ (", ".intercalate (xs.map g) ++ ")")))).toList := by
  have hpart := not_mem_of_isPart (Identifier.isPart_of_valid htable) (k := '\n') (by decide)
  have hlist := not_mem_intercalate (List.forall_mem_map.2 fun x hx => (h x hx).line)
  simp only [String.toList_append, List.mem_append, not_or]
  exact ⟨hlead, hpart, by decide, hlist, by decide⟩

end Statement

namespace LogColumn

open Statement

def declared (d : Dialect) : LogColumnRole → String
  | .id type true => " " ++ Ddl.columnType d (.id type true) ++ " NOT NULL"
  | role => " " ++ Ddl.columnType d role ++ ""

theorem declared_plain (d : Dialect) (role : LogColumnRole) :
    (declared d role).toList.head?.all (!Identifier.isPart ·) = true ∧
      ',' ∉ (declared d role).toList ∧ '\n' ∉ (declared d role).toList := by
  rcases role with _ | ⟨_ | _, _ | _⟩ | _ <;> cases d <;> decide

theorem renderColumn_eq (d : Dialect) (c : LogColumn) :
    Ddl.renderColumn d c = c.name ++ declared d c.role := by
  obtain ⟨name, role⟩ := c
  rcases role with _ | ⟨_, _ | _⟩ | _ <;>
    exact (congrArg (· ++ _) (String.append_assoc ..)).trans (String.append_assoc ..)

theorem names_renderColumn (d : Dialect) {c : LogColumn} (h : Identifier.valid c.name = true) :
    Names c.name (Ddl.renderColumn d c) := by
  have htext := renderColumn_eq d c
  obtain ⟨hhead, hcomma, hline⟩ := declared_plain d c.role
  have hname {k : Char} (hk : Identifier.isPart k = false) : k ∉ c.name.toList :=
    not_mem_of_isPart (Identifier.isPart_of_valid h) hk
  refine ⟨h, ⟨_, htext, hhead⟩, ?_, ?_⟩
  · rw [htext, String.toList_append, List.mem_append, not_or]
    exact ⟨hname (by decide), hcomma⟩
  · rw [htext, String.toList_append, List.mem_append, not_or]
    exact ⟨hname (by decide), hline⟩

end LogColumn

structure Capture.Plain (c : Capture) : Prop where
  logTable : Identifier.valid c.logTable = true
  columns : ∀ column ∈ c.sequenceColumn :: c.columns, Identifier.valid column = true
  values : ∀ value ∈ c.values, '\n' ∉ value.toList

namespace Ddl

open Statement

variable {d : Dialect}

theorem columnLists_createLogTable {table : String} {columns : List LogColumn}
    (htable : Identifier.valid table = true) (hne : columns ≠ [])
    (h : ∀ c ∈ columns, Identifier.valid c.name = true) :
    columnLists "CREATE TABLE IF NOT EXISTS " ((createLogTable table columns).render d).toList =
      [columns.map (·.name)] := by
  have htext := render_createLogTable (d := d) table columns
  have hnames : ∀ c ∈ columns, Names c.name (renderColumn d c) := fun c hc =>
    LogColumn.names_renderColumn d (h c hc)
  simp only [String.append_assoc] at htext
  rw [htext, columnLists_line (not_mem_line (by decide) htable hnames), columns?_line _ htable hne hnames]
  rfl

theorem columnLists_renderInsert {c : Capture} (h : c.Plain) {sequence : String}
    (hs : '\n' ∉ sequence.toList) (rest : List Char) :
    columnLists insertLead ((renderInsert c sequence).toList ++ rest) =
      [c.sequenceColumn :: c.columns] ++ columnLists insertLead rest := by
  have htext : (renderInsert c sequence).toList = (insertLead ++ (c.logTable ++ (" (" ++
      (", ".intercalate ((c.sequenceColumn :: c.columns).map id) ++ ")")))).toList ++ '\n' ::
      (("    VALUES (" ++ (", ".intercalate (sequence :: c.values) ++ ");")).toList ++ ['\n']) := by
    have hlit : ")\n    VALUES (".toList = ')' :: '\n' :: "    VALUES (".toList := rfl
    simp [renderInsert_eq, insertLead, String.toList_append, hlit]
  have hline : '\n' ∉ ("    VALUES (" ++ (", ".intercalate (sequence :: c.values) ++ ");")).toList := by
    have hlist := not_mem_intercalate (List.forall_mem_cons.2 ⟨hs, h.values⟩)
    simp only [String.toList_append, List.mem_append, not_or]
    exact ⟨by decide, hlist, by decide⟩
  have hnames : ∀ column ∈ c.sequenceColumn :: c.columns, Names (id column) (id column) :=
    fun column hc => names_self (h.columns column hc)
  have hskip : columns? insertLead ("    VALUES (" ++
      (", ".intercalate (sequence :: c.values) ++ ");")).toList = none := by
    rw [String.toList_append]
    rfl
  rw [htext, List.append_assoc, List.cons_append, List.append_assoc, List.cons_append, List.nil_append,
    columnLists_append, columnLists_line (not_mem_line (by decide) h.logTable hnames),
    columns?_line _ h.logTable (by simp) hnames, columnLists_append, columnLists_line hline, hskip,
    List.map_id]
  rfl

theorem not_mem_renderTriggerHead {t : CaptureTrigger}
    (hname : ∀ c ∈ t.name.toList, Identifier.isPart c = true)
    (htable : Identifier.valid t.watchedTable = true) : '\n' ∉ (renderTriggerHead t).toList := by
  have hevent := not_mem_of_isPart (isPart_renderEvent t.capture.eventType) (k := '\n') (by decide)
  have hwatched := not_mem_of_isPart (Identifier.isPart_of_valid htable) (k := '\n') (by decide)
  rw [renderTriggerHead_eq]
  simp only [String.toList_append, List.mem_append, not_or]
  exact ⟨⟨⟨⟨⟨not_mem_of_isPart hname (by decide), by decide⟩, hevent⟩, by decide⟩, hwatched⟩, by decide⟩

theorem columnLists_body {c : Capture} (h : c.Plain) {sequence : String}
    (hs : '\n' ∉ sequence.toList) {text head middle tail : List Char}
    (htext : text = head ++ '\n' :: (middle ++ '\n' :: ((renderInsert c sequence).toList ++ tail)))
    (hline : '\n' ∉ head) (hhead : columns? insertLead head = none)
    (hmiddle : columnLists insertLead middle = []) (htail : columnLists insertLead tail = []) :
    columnLists insertLead text = [c.sequenceColumn :: c.columns] := by
  rw [htext, columnLists_append, columnLists_append, columnLists_line hline, hhead, hmiddle,
    columnLists_renderInsert h hs, htail]
  rfl

theorem columnLists_createTrigger {t : CaptureTrigger} (hd : d ≠ .postgres) (h : t.capture.Plain)
    (hname : ∀ c ∈ t.name.toList, Identifier.isPart c = true)
    (htable : Identifier.valid t.watchedTable = true) :
    columnLists insertLead ((createTrigger t).render d).toList =
      [t.capture.sequenceColumn :: t.capture.columns] := by
  obtain ⟨head, hhead⟩ : ∃ head, head = "CREATE TRIGGER IF NOT EXISTS " ++ renderTriggerHead t := ⟨_, rfl⟩
  have hline : '\n' ∉ head.toList := by
    rw [hhead, String.toList_append, List.mem_append, not_or]
    exact ⟨by decide, not_mem_renderTriggerHead hname htable⟩
  have hskip : columns? insertLead head.toList = none := by
    rw [hhead, String.toList_append]
    rfl
  cases d with
  | sqlite =>
      have hs : '\n' ∉ ("(SELECT value FROM " ++ counterName ++ " WHERE id = 1)").toList := by decide
      have hmiddle : ("\nBEGIN\n    UPDATE " ++ (counterName ++
          " SET value = value + 1 WHERE id = 1;\n")).toList = '\n' ::
            ("BEGIN\n    UPDATE isync_sequence SET value = value + 1 WHERE id = 1;".toList ++ ['\n']) := by
        decide
      have htext : (createTrigger t).render .sqlite = head ++ ("\nBEGIN\n    UPDATE " ++ (counterName ++
          " SET value = value + 1 WHERE id = 1;\n")) ++
          renderInsert t.capture ("(SELECT value FROM " ++ counterName ++ " WHERE id = 1)") ++ "END" := by
        rw [hhead, ← String.append_assoc, ← String.append_assoc]
        rfl
      have hlines := congrArg String.toList htext
      rw [String.toList_append, String.toList_append, String.toList_append, hmiddle] at hlines
      simp only [List.append_assoc, List.cons_append, List.nil_append] at hlines
      exact columnLists_body h hs hlines hline hskip rfl rfl
  | mySql =>
      have hs : '\n' ∉ "LAST_INSERT_ID()".toList := by decide
      have hmiddle : ("\nBEGIN\n    UPDATE " ++ (counterName ++
          " SET id = LAST_INSERT_ID(id + 1);\n")).toList = '\n' ::
            ("BEGIN\n    UPDATE isync_sequence SET id = LAST_INSERT_ID(id + 1);".toList ++ ['\n']) := by
        decide
      have htext : (createTrigger t).render .mySql = head ++ ("\nBEGIN\n    UPDATE " ++ (counterName ++
          " SET id = LAST_INSERT_ID(id + 1);\n")) ++ renderInsert t.capture "LAST_INSERT_ID()" ++
          "END" := by
        rw [hhead, ← String.append_assoc, ← String.append_assoc]
        rfl
      have hlines := congrArg String.toList htext
      rw [String.toList_append, String.toList_append, String.toList_append, hmiddle] at hlines
      simp only [List.append_assoc, List.cons_append, List.nil_append] at hlines
      exact columnLists_body h hs hlines hline hskip rfl rfl
  | postgres => exact absurd rfl hd

theorem columnLists_replaceFunction {function : String} {c : Capture} (h : c.Plain)
    (hfunction : ∀ c ∈ function.toList, Identifier.isPart c = true) :
    columnLists insertLead ((replaceFunction function c).render .postgres).toList =
      [c.sequenceColumn :: c.columns] := by
  obtain ⟨head, hhead⟩ : ∃ head, head = "CREATE OR REPLACE FUNCTION " ++ function := ⟨_, rfl⟩
  have hs : '\n' ∉ ("nextval('" ++ counterName ++ "')").toList := by decide
  have hline : '\n' ∉ (head ++ "() RETURNS TRIGGER AS $$").toList := by
    simp only [hhead, String.toList_append, List.mem_append, not_or]
    exact ⟨⟨by decide, not_mem_of_isPart hfunction (by decide)⟩, by decide⟩
  have hskip : columns? insertLead (head ++ "() RETURNS TRIGGER AS $$").toList = none := by
    simp only [hhead, String.toList_append, List.append_assoc]
    rfl
  have hmiddle : "() RETURNS TRIGGER AS $$\nBEGIN\n".toList =
      "() RETURNS TRIGGER AS $$".toList ++ '\n' :: ("BEGIN".toList ++ ['\n']) := by decide
  have htext : (replaceFunction function c).render .postgres = head ++
      "() RETURNS TRIGGER AS $$\nBEGIN\n" ++ renderInsert c ("nextval('" ++ counterName ++ "')") ++
      "    RETURN NULL;\nEND;\n$$ LANGUAGE plpgsql" := by
    rw [hhead]
    rfl
  have hlines := congrArg String.toList htext
  simp only [String.toList_append, List.append_assoc, List.cons_append, List.nil_append,
    hmiddle] at hlines
  rw [← List.append_assoc, ← String.toList_append] at hlines
  exact columnLists_body h hs hlines hline hskip rfl rfl

theorem columnLists_dropTrigger {trigger table : String}
    (htrigger : ∀ c ∈ trigger.toList, Identifier.isPart c = true)
    (htable : Identifier.valid table = true) :
    columnLists insertLead ((dropTrigger trigger table).render .postgres).toList = [] := by
  have hwatched := not_mem_of_isPart (Identifier.isPart_of_valid htable) (k := '\n') (by decide)
  have hline : '\n' ∉ ("DROP TRIGGER IF EXISTS " ++ trigger ++ " ON " ++ table).toList := by
    simp only [String.toList_append, List.mem_append, not_or]
    exact ⟨⟨⟨by decide, not_mem_of_isPart htrigger (by decide)⟩, by decide⟩, hwatched⟩
  rw [render_dropTrigger_postgres, columnLists_line hline]
  simp only [String.toList_append, List.append_assoc]
  rfl

theorem columnLists_createTrigger_postgres {t : CaptureTrigger}
    (hname : ∀ c ∈ t.name.toList, Identifier.isPart c = true)
    (htable : Identifier.valid t.watchedTable = true) :
    columnLists insertLead ((createTrigger t).render .postgres).toList = [] := by
  have hfunction := not_mem_of_isPart (isPart_functionName htable t.capture.eventType) (k := '\n')
    (by decide)
  have hline : '\n' ∉ ("CREATE TRIGGER " ++ renderTriggerHead t ++ " EXECUTE PROCEDURE " ++
      functionName t.watchedTable t.capture.eventType ++ "()").toList := by
    simp only [String.toList_append, List.mem_append, not_or]
    exact ⟨⟨⟨⟨by decide, not_mem_renderTriggerHead hname htable⟩, by decide⟩, hfunction⟩, by decide⟩
  rw [render_createTrigger_postgres, columnLists_line hline]
  simp only [String.toList_append, List.append_assoc]
  rfl

end Ddl

namespace LogModel

open Statement

variable {m : LogModel} (h : m.validateNames = .ok ()) (d : Dialect) (e : EventType)
include h

theorem plain_capture : (m.capture e).Plain where
  logTable := valid_logTable h
  columns := by
    have hnames := valid_names h
    simp only [capture, Capture.columns, List.map_map, List.mem_cons, List.mem_append, List.mem_map]
    rintro column (rfl | ⟨p, hp, rfl⟩ | hc)
    · exact hnames _ (by simp [names])
    · exact hnames _ (List.mem_append_right _ (List.mem_flatMap.2 ⟨p, hp, by simp⟩))
    · exact hnames _ (by simp [names, List.mem_singleton.1 (List.mem_cons.2 hc)])
  values := by
    intro value hv
    rcases List.mem_append.1 hv with hv | hv
    · obtain ⟨c, hc, rfl⟩ := List.mem_map.1 hv
      obtain ⟨p, hp, rfl⟩ := List.mem_map.1 hc
      have hwatched : Identifier.valid p.watched = true :=
        valid_names h _ (List.mem_append_right _ (List.mem_flatMap.2 ⟨p, hp, by simp⟩))
      have hplain := not_mem_of_isPart (Identifier.isPart_of_valid hwatched) (k := '\n') (by decide)
      have halias : '\n' ∉ (rowAlias e).toList := by cases e <;> decide
      have hline : '\n' ∉ (rowAlias e ++ "." ++ p.watched).toList := by
        simp only [String.toList_append, List.mem_append, not_or]
        exact ⟨⟨halias, by decide⟩, hplain⟩
      exact hline
    · obtain rfl := List.mem_singleton.1 hv
      have hcode : '\n' ∉ (toString e.code).toList := by cases e <;> decide
      exact hcode

/-- Only one of the statements that make a trigger has an insertion. -/
theorem columnLists_creating : (m.creating d e).flatMap
    (fun s => columnLists insertLead (s.render d).toList) =
      [m.sequenceColumn :: (m.capture e).columns] := by
  have htable := valid_watchedTable h
  have htrigger := isPart_triggerName htable e
  cases d with
  | sqlite | mySql =>
      rw [creating, List.flatMap_singleton]
      exact Ddl.columnLists_createTrigger nofun (plain_capture h e) htrigger htable
  | postgres =>
      have hfunction := Ddl.columnLists_replaceFunction (plain_capture h e)
        (isPart_functionName htable e)
      have hdrop := Ddl.columnLists_dropTrigger htrigger htable
      have hcreate := Ddl.columnLists_createTrigger_postgres
        (t := ⟨triggerName m.watchedTable e, m.watchedTable, m.capture e⟩) htrigger htable
      simp only [creating, List.flatMap_cons, List.flatMap_nil, hfunction, hdrop, hcreate]
      rfl

end LogModel

end ChangeFeed
