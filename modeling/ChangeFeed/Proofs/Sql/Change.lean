import ChangeFeed.Proofs.Sql.Table

namespace ChangeFeed.Sql

namespace Table

variable {t t' : Table} {id id' : Int64} {values row : Row}

theorem of_mem_zip_convert {f : Column → Value} {c : Column × Value}
    (h : c ∈ t.columns.zip (t.convert id (t.columns.map f))) :
    c.1 ∈ t.columns ∧ (c.1.isRowId = false → c.2 = c.1.affinity.apply (f c.1)) := by
  have hzip {β : Type} (g : Column → β) : t.columns.zip (t.columns.map g) =
      t.columns.map fun c => (c, g c) := by
    simpa using List.zip_map' (f := fun c : Column => c) (g := g) (l := t.columns)
  rw [convert, hzip, List.map_map, hzip] at h
  obtain ⟨k, hk, rfl⟩ := List.mem_map.1 h
  refine ⟨hk, fun hid => ?_⟩
  have hid : k.isRowId = false := hid
  simp [hid]

theorem checkRow_ok
    (hnull : ∀ c ∈ t.columns.zip row, c.1.notNull = true → c.1.isRowId = false → c.2 ≠ .null)
    (honly : ∀ c ∈ t.columns.zip row, ∀ n, c.1.only = some n → c.2.meets (.integer n) = true) :
    t.checkRow row = .ok () := by
  have hnone : ((t.columns.zip row).find? fun c => c.1.notNull && !c.1.isRowId && c.2 = .null) =
      none := by
    rw [List.find?_eq_none]
    intro c hc h
    simp only [Bool.and_eq_true, Bool.not_eq_true', decide_eq_true_iff] at h
    exact hnull c hc h.1.1 h.1.2 h.2
  have hnone' : ((t.columns.zip row).findSome? fun c => c.1.only.bind fun n =>
      if c.2 = .null || c.2.meets (.integer n) then none else some (c.1, n)) = none := by
    rw [List.findSome?_eq_none_iff]
    intro c hc
    cases hn : c.1.only with
    | none => rfl
    | some n => simp [honly c hc n hn]
  simp only [checkRow, hnone, hnone']

theorem checkUnique_ok {old : Option Int64} (hid : old = some id ∨ t.rows.contains id = false)
    (hunique : ∀ c ∈ t.columns, c.unique = false) : t.checkUnique old id row = .ok () := by
  have hfree : ¬ (old ≠ some id && t.rows.contains id) = true := by
    rcases hid with h | h <;> simp [h]
  have hnone : ((t.columns.zip row).reverse.find? fun c =>
      c.1.unique && t.isTaken (old.getD id) c.1 c.2) = none := by
    rw [List.find?_eq_none]
    intro c hc h
    rw [List.mem_reverse] at hc
    simp [hunique c.1 (List.of_mem_zip hc).1] at h
  rw [checkUnique, if_neg hfree, hnone]

theorem insert_ok (hid : t.chooseId values = .ok id)
    (hrow : t.checkRow (t.convert id values) = .ok ())
    (hunique : t.checkUnique none id (t.convert id values) = .ok ()) :
    t.insert values =
      .ok ({ t with rows := t.rows.insert id (t.convert id values) }, id, t.convert id values) := by
  rw [insert, hid]
  simp only [bind, Except.bind, hrow, hunique]
  rfl

theorem replace_ok {c : Column} {v : Value}
    (hc : (t.columns.zip values).find? (·.1.isRowId) = some (c, v)) (hv : v ≠ .null)
    (hid : t.idOf v = .ok id) (hrow : t.checkRow (t.convert id values) = .ok ())
    (hunique : t.checkUnique (some id') id (t.convert id values) = .ok ()) :
    t.replace id' values =
      .ok ({ t with rows := (t.rows.erase id').insert id (t.convert id values) }, id,
        t.convert id values) := by
  rw [replace, hc]
  cases v with
  | null => exact absurd rfl hv
  | _ =>
      simp only [hid, bind, Except.bind, hrow, hunique]
      rfl

theorem shape_of_insert (h : t.insert values = .ok (t', id, row)) :
    t'.name = t.name ∧ t'.columns = t.columns := by
  rw [insert] at h
  obtain ⟨n, -, h⟩ := bind_eq_ok.1 h
  obtain ⟨_, -, h⟩ := bind_eq_ok.1 h
  obtain ⟨_, -, h⟩ := bind_eq_ok.1 h
  cases h
  exact ⟨rfl, rfl⟩

theorem shape_of_replace (h : t.replace id' values = .ok (t', id, row)) :
    t'.name = t.name ∧ t'.columns = t.columns := by
  rw [replace] at h
  dsimp only at h
  split at h
  all_goals
    obtain ⟨n, -, h⟩ := bind_eq_ok.1 h
    obtain ⟨_, -, h⟩ := bind_eq_ok.1 h
    obtain ⟨_, -, h⟩ := bind_eq_ok.1 h
    cases h
    exact ⟨rfl, rfl⟩

end Table

namespace Database

variable {db p p' d : Database} {t : Table} {n n' N : Nat}

def Keyed (db : Database) : Prop := ∀ name t, db.table? name = some t → sameName name t.name

theorem Keyed.setTable (h : db.Keyed) (t : Table) : (db.setTable t).Keyed := by
  intro name t' ht
  rw [table?_setTable] at ht
  by_cases hn : sameName name t.name
  · rw [if_pos hn] at ht
    cases ht
    exact hn
  · rw [if_neg hn] at ht
    exact h name t' ht

theorem table?_of_find {qualifier name : String} (h : db.find qualifier name = .ok t) :
    db.table? name = some t := by
  rw [find] at h
  cases ht : db.table? name with
  | none =>
      rw [ht] at h
      cases h
  | some t' =>
      rw [ht] at h
      cases h
      rfl

section

variable {table : String} (ht : db.table? table = some t)
include ht

theorem requireNames_insert {cells : List (String × Value)}
    (h : ∀ cell ∈ cells, t.hasColumn cell.1 = true) (qualifier : String) (orIgnore : Bool) :
    db.requireNames qualifier (.insert orIgnore table cells) = .ok t := by
  have hfind : db.find qualifier (Change.insert orIgnore table cells).table = .ok t :=
    find_of_some ht qualifier
  have hcolumns : requireColumns t (.noColumnNamed table) (cells.map (·.1)) = .ok () := by
    apply requireColumns_ok
    simpa using h
  rw [requireNames, hfind]
  simp only [bind, Except.bind, hcolumns]
  rfl

theorem requireNames_update {assignments : List (String × Assignment)} {conditions : List Condition}
    (h : ∀ name ∈ assignments.map (·.1) ++ conditions.map (·.1), t.hasColumn name = true)
    (qualifier : String) :
    db.requireNames qualifier (.update table assignments conditions) = .ok t := by
  have hfind : db.find qualifier (Change.update table assignments conditions).table = .ok t :=
    find_of_some ht qualifier
  rw [requireNames, hfind]
  simp only [bind, Except.bind, requireColumns_ok h]
  rfl

end

theorem table?_of_requireNames {qualifier : String} {c : Change}
    (h : db.requireNames qualifier c = .ok t) : db.table? c.table = some t := by
  rw [requireNames] at h
  obtain ⟨t', ht, h⟩ := bind_eq_ok.1 h
  have hret : t' = t := by
    cases c with
    | _ =>
        obtain ⟨_, -, h⟩ := bind_eq_ok.1 h
        cases h
        rfl
  exact hret ▸ table?_of_find ht

theorem updateRow_eq_ok {after : AfterRow} {table : String} {assignments : List (String × Assignment)}
    {id : Int64} (h : updateRow after table assignments (p, n) id = .ok (p', n')) :
    ∃ t, p.find "" table = .ok t ∧ ((t.rows.get? id = none ∧ p' = p ∧ n' = n) ∨
      ∃ row t₁ id₁ row₁, t.rows.get? id = some row ∧
        t.replace id (assigned t row assignments) = .ok (t₁, id₁, row₁) ∧
        after (p.setTable t₁) t₁ id₁ row₁ = .ok p' ∧ n' = n + 1) := by
  rw [updateRow] at h
  obtain ⟨t, ht, h⟩ := bind_eq_ok.1 h
  refine ⟨t, ht, ?_⟩
  cases hr : t.rows.get? id with
  | none =>
      rw [hr] at h
      cases h
      exact .inl ⟨rfl, rfl, rfl⟩
  | some row =>
      rw [hr] at h
      obtain ⟨⟨t₁, id₁, row₁⟩, hrep, h⟩ := bind_eq_ok.1 h
      obtain ⟨q, hafter, h⟩ := bind_eq_ok.1 h
      cases h
      exact .inr ⟨row, t₁, id₁, row₁, rfl, hrep, hafter, rfl⟩

theorem deleteRow_eq_ok {after : AfterRow} {table : String} {id : Int64}
    (h : deleteRow after table (p, n) id = .ok (p', n')) :
    ∃ t, p.find "" table = .ok t ∧ ((t.rows.get? id = none ∧ p' = p ∧ n' = n) ∨
      ∃ row, t.rows.get? id = some row ∧ after (p.setTable (t.remove id)) t id row = .ok p' ∧
        n' = n + 1) := by
  rw [deleteRow] at h
  obtain ⟨t, ht, h⟩ := bind_eq_ok.1 h
  refine ⟨t, ht, ?_⟩
  cases hr : t.rows.get? id with
  | none =>
      rw [hr] at h
      cases h
      exact .inl ⟨rfl, rfl, rfl⟩
  | some row =>
      rw [hr] at h
      obtain ⟨q, hafter, h⟩ := bind_eq_ok.1 h
      cases h
      exact .inr ⟨row, rfl, hafter, rfl⟩

section

variable {f f' : Database × Nat → Int64 → Except SqlError (Database × Nat)}
  {R : Nat → Database → Database → Prop}

theorem le_of_foldlM (hf : ∀ r id r', f r id = .ok r' → r.2 ≤ r'.2) {ids : List Int64}
    {r r' : Database × Nat} (h : ids.foldlM f r = .ok r') : r.2 ≤ r'.2 := by
  induction ids generalizing r with
  | nil =>
      cases h
      exact Nat.le_refl _
  | cons id ids ih =>
      rw [List.foldlM_cons] at h
      obtain ⟨s, hs, h⟩ := bind_eq_ok.1 h
      exact Nat.le_trans (hf r id s hs) (ih h)

theorem foldlM_beside (hf : ∀ r id r', f r id = .ok r' → r.2 ≤ r'.2)
    (hstep : ∀ n p d id p' n', R n p d → n' ≤ N → f (p, n) id = .ok (p', n') →
      ∃ d', f' (d, n) id = .ok (d', n') ∧ R n' p' d')
    {ids : List Int64} (hR : R n p d) (h : ids.foldlM f (p, n) = .ok (p', N)) :
    ∃ d', ids.foldlM f' (d, n) = .ok (d', N) ∧ R N p' d' := by
  induction ids generalizing p d n with
  | nil =>
      cases h
      exact ⟨d, rfl, hR⟩
  | cons id ids ih =>
      rw [List.foldlM_cons] at h
      obtain ⟨⟨p₁, n₁⟩, hp₁, h⟩ := bind_eq_ok.1 h
      -- The count never falls, so the count after all rows bounds it after this one.
      obtain ⟨d₁, hd₁, hR₁⟩ := hstep n p d id p₁ n₁ hR (le_of_foldlM hf h) hp₁
      obtain ⟨d', hd', hR'⟩ := ih hR₁ h
      rw [List.foldlM_cons, hd₁]
      exact ⟨d', hd', hR'⟩

end

/-- `R n p d` relates the databases after `n` rows. It lets both see the same table, and it is kept
by each of the `N` rows and by what follows it. -/
structure Beside (R : Nat → Database → Database → Prop) (table : String) (N : Nat)
    (after after' : AfterRow) : Prop where
  same : ∀ n p d, R n p d → d.table? table = p.table? table
  row : ∀ n p d t t₁ t₂ id row p', R n p d → n < N → p.table? table = some t → t₁.name = t.name →
    t₁.columns = t.columns → t₂.name = t.name → after (p.setTable t₁) t₂ id row = .ok p' →
    ∃ d', after' (d.setTable t₁) t₂ id row = .ok d' ∧ R (n + 1) p' d'

section

variable {R : Nat → Database → Database → Prop} {table : String} {after after' : AfterRow}

theorem Beside.find (h : Beside R table N after after') (hR : R n p d) (qualifier : String) :
    d.find qualifier table = p.find qualifier table := by
  rw [Database.find, Database.find, h.same n p d hR]

theorem Beside.updateRow {assignments : List (String × Assignment)} {id : Int64}
    (h : Beside R table N after after') (hR : R n p d) (hN : n' ≤ N)
    (hp : updateRow after table assignments (p, n) id = .ok (p', n')) :
    ∃ d', Database.updateRow after' table assignments (d, n) id = .ok (d', n') ∧ R n' p' d' := by
  obtain ⟨t, ht, ⟨hr, rfl, rfl⟩ | ⟨row, t₁, id₁, row₁, hr, hrep, hafter, rfl⟩⟩ := updateRow_eq_ok hp
  · refine ⟨d, ?_, hR⟩
    simp only [Database.updateRow, h.find hR, ht, bind, Except.bind, hr]
    rfl
  · obtain ⟨hname, hcolumns⟩ := Table.shape_of_replace hrep
    obtain ⟨d', hd', hR'⟩ := h.row n p d t t₁ t₁ id₁ row₁ p' hR hN (table?_of_find ht) hname hcolumns
      hname hafter
    refine ⟨d', ?_, hR'⟩
    simp only [Database.updateRow, h.find hR, ht, bind, Except.bind, hr, hrep, hd']
    rfl

theorem Beside.deleteRow {id : Int64} (h : Beside R table N after after') (hR : R n p d)
    (hN : n' ≤ N) (hp : deleteRow after table (p, n) id = .ok (p', n')) :
    ∃ d', Database.deleteRow after' table (d, n) id = .ok (d', n') ∧ R n' p' d' := by
  obtain ⟨t, ht, ⟨hr, rfl, rfl⟩ | ⟨row, hr, hafter, rfl⟩⟩ := deleteRow_eq_ok hp
  · refine ⟨d, ?_, hR⟩
    simp only [Database.deleteRow, h.find hR, ht, bind, Except.bind, hr]
    rfl
  · obtain ⟨d', hd', hR'⟩ := h.row n p d t (t.remove id) t id row p' hR hN (table?_of_find ht) rfl rfl
      rfl hafter
    refine ⟨d', ?_, hR'⟩
    simp only [Database.deleteRow, h.find hR, ht, bind, Except.bind, hr, hd']
    rfl

theorem le_of_updateRow {assignments : List (String × Assignment)} (r : Database × Nat) (id : Int64)
    (r' : Database × Nat) (h : Database.updateRow after table assignments r id = .ok r') :
    r.2 ≤ r'.2 := by
  obtain ⟨t, -, ⟨-, -, hn⟩ | ⟨row, t₁, id₁, row₁, -, -, -, hn⟩⟩ := updateRow_eq_ok h
  · exact Nat.le_of_eq hn.symm
  · exact hn ▸ Nat.le_succ _

theorem le_of_deleteRow (r : Database × Nat) (id : Int64) (r' : Database × Nat)
    (h : Database.deleteRow after table r id = .ok r') : r.2 ≤ r'.2 := by
  obtain ⟨t, -, ⟨-, -, hn⟩ | ⟨row, -, -, hn⟩⟩ := deleteRow_eq_ok h
  · exact Nat.le_of_eq hn.symm
  · exact hn ▸ Nat.le_succ _

theorem Beside.applyChange {c : Change} (h : Beside R c.table N after after') (hR : R 0 p d)
    (hp : applyChange after p c = .ok (p', N)) :
    ∃ d', Database.applyChange after' d c = .ok (d', N) ∧ R N p' d' := by
  rw [Database.applyChange] at hp
  obtain ⟨t, ht, hp⟩ := bind_eq_ok.1 hp
  have hd : d.find "" c.table = .ok t := (h.find hR "").trans ht
  simp only [Database.applyChange, hd, bind, Except.bind]
  cases c with
  | insert orIgnore table cells =>
      dsimp only at hp ⊢
      split at hp
      next t₁ id row hins =>
        obtain ⟨q, hafter, hp⟩ := bind_eq_ok.1 hp
        cases hp
        obtain ⟨hname, hcolumns⟩ := Table.shape_of_insert hins
        obtain ⟨d', hd', hR'⟩ := h.row 0 p d t t₁ t₁ id row _ hR Nat.one_pos (table?_of_find ht) hname
          hcolumns hname hafter
        refine ⟨d', ?_, hR'⟩
        simp only [hd']
        rfl
      next e hins =>
        split at hp
        next hignore =>
          cases hp
          exact ⟨d, if_pos hignore, hR⟩
        next => cases hp
  | update table assignments conditions =>
      refine foldlM_beside (R := R) le_of_updateRow ?_ hR hp
      intro n p d id p' n' hR hN hp
      exact h.updateRow hR hN hp
  | delete table conditions =>
      refine foldlM_beside (R := R) le_of_deleteRow ?_ hR hp
      intro n p d id p' n' hR hN hp
      exact h.deleteRow hR hN hp

end

def cellFor (cells : List (String × Value)) (c : Column) : Value :=
  match cells.find? fun cell => sameName cell.1 c.name with
  | some cell => cell.2
  | none => .null

section

variable {after : AfterRow} {table : String} {cells : List (String × Value)}
  (ht : db.table? table = some t)
include ht

theorem applyChange_insert {db' : Database} {t' : Table} {id : Int64} {row : Row}
    (hins : t.insert (t.columns.map (cellFor cells)) = .ok (t', id, row))
    (hafter : after (db.setTable t') t' id row = .ok db') (orIgnore : Bool) :
    applyChange after db (.insert orIgnore table cells) = .ok (db', 1) := by
  have hfind : db.find "" (Change.insert orIgnore table cells).table = .ok t := find_of_some ht ""
  rw [applyChange, hfind]
  simp only [bind, Except.bind]
  split
  next h =>
    cases h.symm.trans hins
    rw [hafter]
    rfl
  next h => cases h.symm.trans hins

theorem applyChange_insert_ignored {e : SqlError}
    (hins : t.insert (t.columns.map (cellFor cells)) = .error e) (he : isConstraint e = true) :
    applyChange after db (.insert true table cells) = .ok (db, 0) := by
  have hfind : db.find "" (Change.insert true table cells).table = .ok t := find_of_some ht ""
  rw [applyChange, hfind]
  simp only [bind, Except.bind]
  split
  next h => cases h.symm.trans hins
  next h =>
    cases h.symm.trans hins
    rw [he]
    rfl

end

def nothing : AfterRow := fun db _ _ _ => .ok db

/-- A change that sets off no trigger is the plain change. -/
theorem applyWithTriggers_quiet {db db' : Database} {c : Change} (hkeyed : db.Keyed)
    (hquiet : db.triggersOn c.table c.eventType = []) (h : applyChange nothing db c = .ok (db', n))
    (levels : Nat) (active : List String) : applyWithTriggers levels active db c = .ok (db', n) := by
  cases levels with
  | zero => exact h
  | succ levels =>
      let R (_ : Nat) (p d : Database) : Prop := d = p ∧ p.Keyed ∧ p.triggers = db.triggers
      suffices hbeside : Beside R c.table n nothing fun db t id row =>
          (db.triggersOn t.name c.eventType).foldlM (fun db g =>
            if g.name ∈ active then .ok db
            else capture (applyWithTriggers levels (g.name :: active)) g.capture db t id row) db by
        obtain ⟨d', hd', rfl, -, -⟩ := hbeside.applyChange ⟨rfl, hkeyed, rfl⟩ h
        exact hd'
      constructor
      · rintro _ _ d ⟨rfl, -, -⟩
        rfl
      · rintro _ _ d t t₁ t₂ id row _ ⟨rfl, hk, htr⟩ - ht - - hname ⟨⟩
        have hnone : (d.setTable t₁).triggersOn t₂.name c.eventType = [] :=
          (triggersOn_congr htr (hname ▸ hk _ _ ht) c.eventType).trans hquiet
        refine ⟨d.setTable t₁, ?_, rfl, hk.setTable t₁, htr⟩
        rw [hnone]
        rfl

theorem change_quiet {db db' : Database} {c : Change} (hkeyed : db.Keyed)
    (hnames : db.requireNames "" c = .ok t) (hquiet : db.triggersOn c.table c.eventType = [])
    (h : applyChange nothing db c = .ok (db', n)) : db.change c = .ok (db', n) := by
  rw [change, resolve_of_quiet hnames hquiet]
  exact applyWithTriggers_quiet hkeyed hquiet h _ _

end Database

end ChangeFeed.Sql
