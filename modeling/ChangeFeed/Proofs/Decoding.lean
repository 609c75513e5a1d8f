import ChangeFeed.Proofs.Poller

namespace ChangeFeed

def Delivery.events (models : List LogModel) (d : Delivery) : Except Failure (List ChangeEvent) :=
  match models[d.1]?, d.2.eventType? with
  | some model, some eventType => model.events d.2 eventType
  | _, _ => .ok []

def decode (models : List LogModel) : List Delivery → Except Failure (List ChangeEvent)
  | [] => .ok []
  | d :: ds => do
    let events ← d.events models
    let later ← decode models ds
    return events ++ later

variable {models : List LogModel} {as bs ds : List Delivery} {es fs : List ChangeEvent}

theorem decode_cons_ok {d : Delivery} : decode models (d :: ds) = .ok es ↔
    ∃ first later, d.events models = .ok first ∧ decode models ds = .ok later ∧
      es = first ++ later := by
  rw [decode, bind_eq_ok]
  constructor
  · intro hend
    obtain ⟨first, hf, h⟩ := hend
    obtain ⟨later, hl, h⟩ := bind_eq_ok.1 h
    cases h
    exact ⟨first, later, hf, hl, rfl⟩
  · intro hend
    obtain ⟨first, later, hf, hl, rfl⟩ := hend
    exact ⟨first, hf, bind_eq_ok.2 ⟨later, hl, rfl⟩⟩

theorem decode_append_ok : decode models (as ++ bs) = .ok es ↔
    ∃ xs ys, decode models as = .ok xs ∧ decode models bs = .ok ys ∧ es = xs ++ ys := by
  induction as generalizing es with
  | nil => simp [decode]
  | cons d as ih =>
      rw [List.cons_append, decode_cons_ok]
      constructor
      · intro h
        obtain ⟨first, later, hf, hl, rfl⟩ := h
        obtain ⟨xs, ys, hx, hy, rfl⟩ := ih.1 hl
        exact ⟨first ++ xs, ys, decode_cons_ok.2 ⟨first, xs, hf, hx, rfl⟩, hy,
          (List.append_assoc ..).symm⟩
      · intro h
        obtain ⟨xs, ys, hx, hy, rfl⟩ := h
        obtain ⟨first, later, hf, hl, rfl⟩ := decode_cons_ok.1 hx
        exact ⟨first, later ++ ys, hf, ih.2 ⟨later, ys, hl, hy, rfl⟩, List.append_assoc ..⟩

theorem decode_ok_of_forall (h : ∀ d ∈ ds, ∃ es, d.events models = .ok es) :
    ∃ es, decode models ds = .ok es := by
  induction ds with
  | nil => exact ⟨[], rfl⟩
  | cons d ds ih =>
      obtain ⟨first, hf⟩ := h d (List.mem_cons_self ..)
      obtain ⟨later, hl⟩ := ih fun d hd => h d (List.mem_cons_of_mem _ hd)
      exact ⟨first ++ later, decode_cons_ok.2 ⟨first, later, hf, hl, rfl⟩⟩

namespace Batch

variable {b b' : Batch}

theorem events_of_add {d : Delivery} (h : b.add models d = .ok b') :
    ∃ fs, d.events models = .ok fs ∧ b'.events = b.events ++ fs := by
  rw [Delivery.events]
  cases hm : models[d.1]? with
  | none =>
      simp only [add, hm] at h
      cases h
      exact ⟨[], rfl, (List.append_nil _).symm⟩
  | some m =>
      cases ht : d.2.eventType? with
      | none =>
          simp only [add, hm, ht] at h
          cases h
          exact ⟨[], rfl, (List.append_nil _).symm⟩
      | some t =>
          simp only [add, hm, ht] at h
          obtain ⟨fs, hf, h⟩ := bind_eq_ok.1 h
          cases h
          exact ⟨fs, hf, rfl⟩

theorem add_of_events {d : Delivery} (h : d.events models = .ok fs) (b : Batch) :
    ∃ b', b.add models d = .ok b' := by
  rw [add]
  split
  next m t hm ht =>
    simp only [Delivery.events, hm, ht] at h
    exact ⟨_, bind_eq_ok.2 ⟨fs, h, rfl⟩⟩
  next => exact ⟨_, rfl⟩

theorem events_of_foldlM (h : ds.foldlM (add models) b = .ok b') :
    ∃ fs, decode models ds = .ok fs ∧ b'.events = b.events ++ fs := by
  induction ds generalizing b with
  | nil =>
      cases h
      exact ⟨[], rfl, (List.append_nil _).symm⟩
  | cons d ds ih =>
      obtain ⟨c, hc, h⟩ := bind_eq_ok.1 h
      obtain ⟨first, hf, hce⟩ := events_of_add hc
      obtain ⟨later, hl, he⟩ := ih h
      refine ⟨first ++ later, decode_cons_ok.2 ⟨first, later, hf, hl, rfl⟩, ?_⟩
      rw [he, hce, List.append_assoc]

theorem foldlM_of_decode (h : decode models ds = .ok fs) (b : Batch) :
    ∃ b', ds.foldlM (add models) b = .ok b' := by
  induction ds generalizing fs b with
  | nil => exact ⟨b, rfl⟩
  | cons d ds ih =>
      obtain ⟨first, later, hf, hl, -⟩ := decode_cons_ok.1 h
      obtain ⟨c, hc⟩ := add_of_events hf b
      obtain ⟨b', hb⟩ := ih hl c
      exact ⟨b', bind_eq_ok.2 ⟨c, hc, hb⟩⟩

end Batch

namespace Poller

variable {κ : Type} {p : Poller κ} {log : MemoryLog} {b : Batch}

theorem decode_nextRows (h : p.nextBatch log = .ok b) :
    decode p.models (p.nextRows log) = .ok b.events := by
  obtain ⟨fs, hf, he⟩ := Batch.events_of_foldlM h
  rw [hf, he]
  rfl

end Poller

namespace IdMapping

variable {mapping : IdMapping} {row : LogRow}

theorem id_eq_ok_iff {i : EntityId} : mapping.id row = .ok i ↔ mapping.id? row = some i := by
  rw [id, id?, map_eq_pure_bind, bind_eq_ok, Option.map_eq_map, Option.map_eq_some_iff]
  refine exists_congr fun vs => and_congr (mapM_eq_ok_iff fun c v => ?_) ?_
  · cases row.column? c <;> simp
  · exact ⟨Except.ok.inj, congrArg Except.ok⟩

theorem isSome_id?_iff :
    (mapping.id? row).isSome ↔ ∀ c ∈ mapping.logColumns, (row.column? c).isSome := by
  rw [id?, Option.map_eq_map, Option.isSome_map, isSome_mapM_iff]

end IdMapping

namespace LogModel

variable {m : LogModel} {values : List IdValue}

/-- A row decodes if it holds an id for the first mapping. It has an event for each mapping that it
holds an id for. -/
theorem events_eq_ok_iff {row : LogRow} {t : EventType} {es : List ChangeEvent} :
    m.events row t = .ok es ↔ (∀ first ∈ m.ids.head?, (first.id? row).isSome) ∧
      es = m.ids.filterMap fun k => (k.id? row).map (⟨k.entityType, ·, t⟩) := by
  rw [events]
  cases m.ids with
  | nil => exact ⟨fun h => ⟨by simp, (Except.ok.inj h).symm⟩, fun h => congrArg _ h.2.symm⟩
  | cons first later =>
      cases hid : first.id? row with
      | none =>
          refine iff_of_false (fun h => ?_) (fun h => ?_)
          · obtain ⟨i, hi, -⟩ := bind_eq_ok.1 h
            rw [IdMapping.id_eq_ok_iff, hid] at hi
            cases hi
          · simpa [hid] using h.1 first
      | some i =>
          have hok := IdMapping.id_eq_ok_iff.2 hid
          have hsome : ∀ k ∈ (first :: later).head?, (k.id? row).isSome := by simp [hid]
          rw [List.filterMap_cons, hid]
          dsimp only
          rw [hok]
          exact ⟨fun h => ⟨hsome, (Except.ok.inj h).symm⟩, fun h => congrArg _ h.2.symm⟩

theorem checkMappings_cons {table : String} {seen : List String} {mapping : IdMapping}
    {ids : List IdMapping} (h : checkMappings table seen (mapping :: ids) = .ok ()) :
    mapping.logColumns.length = mapping.watchedColumns.length ∧
      ∃ seen', addColumns table seen mapping.logColumns = .ok seen' ∧
        checkMappings table seen' ids = .ok () := by
  rw [checkMappings] at h
  by_cases hc : mapping.logColumns = []
  · rw [if_pos hc] at h
    cases h
  rw [if_neg hc] at h
  by_cases hl : mapping.logColumns.length = mapping.watchedColumns.length
  · rw [if_neg (not_not_intro hl)] at h
    exact ⟨hl, bind_eq_ok.1 h⟩
  · rw [if_pos hl] at h
    cases h

theorem checkMappings_ok {table : String} {seen : List String} {ids : List IdMapping}
    (h : checkMappings table seen ids = .ok ()) :
    ∀ mapping ∈ ids, mapping.logColumns.length = mapping.watchedColumns.length := by
  induction ids generalizing seen with
  | nil => simp
  | cons mapping ids ih =>
      obtain ⟨hl, seen', -, h⟩ := checkMappings_cons h
      exact List.forall_mem_cons.2 ⟨hl, ih h⟩

theorem checkMappings_of_validate (h : m.validate = .ok ()) :
    m.ids ≠ [] ∧ m.sequenceColumn ≠ m.eventColumn ∧
      checkMappings m.logTable [m.eventColumn, m.sequenceColumn] m.ids = .ok () := by
  rw [validate] at h
  by_cases hn : m.logTable = "" ∨ m.watchedTable = ""
  · rw [if_pos hn] at h
    cases h
  rw [if_neg hn] at h
  by_cases hi : m.ids = []
  · rw [if_pos hi] at h
    cases h
  rw [if_neg hi] at h
  by_cases hs : m.sequenceColumn = m.eventColumn
  · rw [if_pos hs] at h
    cases h
  rw [if_neg hs] at h
  exact ⟨hi, hs, h⟩

theorem validate_ok (h : m.validate = .ok ()) : m.ids ≠ [] ∧
    ∀ mapping ∈ m.ids, mapping.logColumns.length = mapping.watchedColumns.length := by
  obtain ⟨hi, -, hc⟩ := checkMappings_of_validate h
  exact ⟨hi, checkMappings_ok hc⟩

theorem mem_logColumns (h : m.validate = .ok ()) {mapping : IdMapping} (hm : mapping ∈ m.ids)
    {c : String} (hc : c ∈ mapping.logColumns) : c ∈ m.logColumns := by
  have hl := (validate_ok h).2 mapping hm
  have hz : ((mapping.logColumns.zip mapping.watchedColumns).map (·.1)) = mapping.logColumns :=
    List.map_fst_zip (Nat.le_of_eq hl)
  rw [← hz] at hc
  obtain ⟨e, he, rfl⟩ := List.mem_map.1 hc
  refine List.mem_map.2 ⟨⟨mapping, e.1, e.2⟩, ?_, rfl⟩
  exact List.mem_flatMap.2 ⟨mapping, hm, List.mem_map.2 ⟨e, he, rfl⟩⟩

theorem column?_row (hl : m.logColumns.length = values.length) (n : Int64) (t : EventType)
    {c : String} (hc : c ∈ m.logColumns) : ∃ v, (m.row n t values).column? c = some v := by
  refine Option.isSome_iff_exists.1 ((SortedMap.get?_ofList_isSome _ _).2 ?_)
  have hz : ((m.logColumns.zip values).map (·.1)) = m.logColumns :=
    List.map_fst_zip (Nat.le_of_eq hl)
  rw [← hz] at hc
  exact List.mem_map.1 hc

theorem events_row (h : m.validate = .ok ()) (hl : m.logColumns.length = values.length)
    (n : Int64) (t : EventType) : ∃ es, m.events (m.row n t values) t = .ok es ∧ es ≠ [] := by
  obtain ⟨first, later, hids⟩ := List.exists_cons_of_ne_nil (validate_ok h).1
  have hcolumn : ∀ c ∈ first.logColumns, ((m.row n t values).column? c).isSome := by
    intro c hc
    exact Option.isSome_iff_exists.2
      (column?_row hl n t (mem_logColumns h (hids ▸ List.mem_cons_self ..) hc))
  have hid : (first.id? (m.row n t values)).isSome := IdMapping.isSome_id?_iff.2 hcolumn
  obtain ⟨id, hfirst⟩ := Option.isSome_iff_exists.1 hid
  refine ⟨_, events_eq_ok_iff.2 ⟨by simpa [hids] using hid, rfl⟩, ?_⟩
  simp [hids, hfirst]

end LogModel

end ChangeFeed

namespace ChangeFeed.Sample

def placeLog : LogModel where
  logTable := "place_log"
  watchedTable := "place"
  ids := [⟨"Place", ["place_id"], ["id"], .integer⟩,
    ⟨"Sorcerer", ["sorcerer_id"], ["sorcerer_id"], .integer⟩]

end ChangeFeed.Sample
