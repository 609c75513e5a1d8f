import ChangeFeed.Proofs.Capture.Installed
import ChangeFeed.Proofs.Log.Kept

namespace ChangeFeed

open Act Sql

namespace SqlLog

variable {models : List LogModel} {m : LogModel} {db : Database} {t : Table}

theorem Query.of_open {q : Query} (h : q.open db = .ok t) :
    db.table? q.table = some t ∧ ∀ c ∈ q.mentions, c.role ≠ .table →
      (db.valueOf? c.name).isSome = true ∨ t.hasColumn c.name = true := by
  rw [Query.open] at h
  split at h
  next => cases h
  next =>
    obtain ⟨t', ht, h⟩ := bind_eq_ok.1 h
    split at h
    next => cases h
    next hnone =>
      cases h
      refine ⟨Database.table?_of_find ht, fun c hc hrole => ?_⟩
      have hfound := List.find?_eq_none.1 hnone c hc
      cases hv : db.valueOf? c.name with
      | some v => exact .inl rfl
      | none => simpa [hrole, hv] using hfound

theorem hasColumn_hasSequence {n : Nat} (h : (deleteQuery m n).open db = .ok t) (ids : List Int64) :
    t.hasColumn (hasSequence m db ids).1 = true := by
  rw [hasSequence]
  split
  next =>
    have hrowid : Table.isRowIdName "rowid" = true := by decide +kernel
    simp [Table.hasColumn, hrowid]
  next hv =>
    have hmention : ∃ c ∈ (deleteQuery m n).mentions, c.role = .column ∧ c.name = m.sequenceColumn :=
      ⟨_, List.mem_cons_of_mem _ (List.mem_singleton_self _), rfl, rfl⟩
    obtain ⟨c, hc, hrole, hname⟩ := hmention
    have hnamed := (Query.of_open h).2 c hc (by rw [hrole]; simp)
    rw [hname] at hnamed
    exact hnamed.resolve_left hv

section

variable {P : Database → Prop} (hs : Suited models) (hlayout : ∀ db, P db → Layout models db)
  (hwithout : ∀ db m t ids, P db → m ∈ models → db.table? m.logTable = some t →
    P (db.setTable (t.without ids)))
include hs hlayout hwithout

theorem deleteRows_keeps (hm : m ∈ models) (ids : List Int64) :
    Keeps (fun log => P log.db ∧ ∀ d, log.saved = some d → P d) (deleteRows m ids) := by
  rintro ⟨db, saved⟩ ⟨hdb, hsaved⟩
  rw [deleteRows]
  refine ends_get_bind ?_
  dsimp only
  cases hopen : (deleteQuery m ids.length).open db with
  | error e => exact ⟨hdb, hsaved⟩
  | ok t =>
      have ht : db.table? m.logTable = some t := (Query.of_open hopen).1
      have hl := hlayout db hdb
      have hchange := Database.change_delete [hasSequence m db ids] ht (hl.keyed _ _ ht)
        (List.forall_mem_singleton.2 (hasColumn_hasSequence hopen ids)) (hl.quiet_log hs hm .delete)
      rw [hchange]
      exact ⟨hwithout db m t _ hdb hm ht, hsaved⟩

theorem store_preserves :
    store.Preserves models fun log => P log.db ∧ ∀ d, log.saved = some d → P d where
  start := by
    refine keeps_modify ?_
    rintro ⟨db, saved⟩ ⟨hdb, -⟩
    refine ⟨hdb, ?_⟩
    rintro _ ⟨⟩
    exact hdb
  fetch m after limit := keeps_get.bind fun _ => keeps_ofExcept _
  delete := by
    intro m hm ids
    refine (keeps_ofExcept _).bind fun _ => Keeps.foldlM (fun n ids _ => ?_) 0
    exact (deleteRows_keeps hs hlayout hwithout hm ids).bind fun _ => keeps_pure _
  commit := keeps_modify fun log h => ⟨h.1, nofun⟩
  rollback := by
    refine keeps_modify ?_
    rintro ⟨db, saved⟩ ⟨hdb, hsaved⟩
    refine ⟨?_, nofun⟩
    cases saved with
    | none => exact hdb
    | some d => exact hsaved d rfl

end

end SqlLog

section

variable {models : List LogModel} {m : LogModel} {db : Database} {v : Int64} {t : Table}
  (hs : Suited models)
include hs

theorem Layout.without (hl : Layout models db) (hm : m ∈ models) (ht : db.table? m.logTable = some t)
    (ids : List Int64) : Layout models (db.setTable (t.without ids)) := by
  obtain ⟨-, hwatched, honly⟩ := hs.own hm (hl.keyed _ _ ht)
  refine hl.setTable (fun m' hm' hn => absurd hn (hwatched m' hm')) fun m' hm' hn => ?_
  obtain rfl := honly m' hm' hn
  have hmade := hl.made m' hm t ht
  exact ⟨hmade.name, hmade.columns, hmade.distinct⟩

theorem Off.without (h : Off models db) (hm : m ∈ models) (ht : db.table? m.logTable = some t)
    (ids : List Int64) : Off models (db.setTable (t.without ids)) := by
  refine ⟨h.toLayout.without hs hm ht ids, h.triggers, ?_⟩
  rw [Database.table?_setTable, Table.name_without, if_neg (hs.own hm (h.keyed _ _ ht)).1]
  exact h.counter

theorem On.without (h : On models models db v) (hm : m ∈ models) (ht : db.table? m.logTable = some t)
    (ids : List Int64) : On models models (db.setTable (t.without ids)) v := by
  obtain ⟨hcounter, hwatched, honly⟩ := hs.own hm (h.keyed _ _ ht)
  refine h.setTable (Int64.le_refl v) ?_ (fun m' hm' hn => absurd hn (hwatched m' hm')) ?_
  · rw [Database.table?_setTable, Table.name_without, if_neg hcounter]
    exact h.counter
  · intro m' hm' hn
    obtain rfl := honly m' hm' hn
    have hmade := h.made m' hm t ht
    refine ⟨⟨hmade.name, hmade.columns, hmade.distinct⟩, fun n hn => ?_⟩
    exact h.below m' hm t ht n (Table.mem_keys_without hn)

variable {κ : Type} {p : Poller κ} (hp : p.models = models) (x : κ)
include hp

theorem Off.poll (h : Off models db) :
    Off models ((p.poll SqlLog.store).outcome (⟨db, none⟩, x)).2.1.db := by
  subst hp
  have hstore := SqlLog.store_preserves (P := Off p.models) hs (fun _ h => h.toLayout)
    fun _ _ _ ids h hm ht => h.without hs hm ht ids
  exact ((Poller.poll_keeps hstore).outcome (s := (⟨db, none⟩, x)) ⟨h, nofun⟩).1

theorem On.poll (h : On models models db v) :
    On models models ((p.poll SqlLog.store).outcome (⟨db, none⟩, x)).2.1.db v := by
  subst hp
  have hstore := SqlLog.store_preserves (P := (On p.models p.models · v)) hs (fun _ h => h.toLayout)
    fun _ _ _ ids h hm ht => h.without hs hm ht ids
  exact ((Poller.poll_keeps hstore).outcome (s := (⟨db, none⟩, x)) ⟨h, nofun⟩).1

end

end ChangeFeed
