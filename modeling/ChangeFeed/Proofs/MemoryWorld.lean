import ChangeFeed.Proofs.Updater

namespace ChangeFeed

open Act

namespace MemoryProvider

variable {p : MemoryProvider}

theorem load_eq (ho : p.sessionOpen = true) (k : EntityKey) : p.load k =
    if k ∈ p.failing then .error (.loadFailed k.entityType k.id) else .ok (p.documents.get? k) := by
  simp [load, ho]

theorem load_ok (ho : p.sessionOpen = true) {k : EntityKey} {d : Option Document}
    (h : p.load k = .ok d) : d = p.documents.get? k := by
  rw [load_eq ho] at h
  by_cases hk : k ∈ p.failing
  · rw [if_pos hk] at h
    cases h
  · rw [if_neg hk] at h
    exact (Except.ok.inj h).symm

theorem load_error (ho : p.sessionOpen = true) {k : EntityKey} {e : Failure}
    (h : p.load k = .error e) : p.failing ≠ [] := by
  rw [load_eq ho] at h
  by_cases hk : k ∈ p.failing
  · exact List.ne_nil_of_mem hk
  · rw [if_neg hk] at h
    cases h

theorem loadBatch_ok (ho : p.sessionOpen = true) {root : String} {ids : List EntityId}
    {ds : List Document} (h : p.loadBatch root ids = .ok ds) :
    ds = ids.filterMap fun id => p.documents.get? ⟨root, id⟩ := by
  induction ids generalizing ds with
  | nil =>
      cases h
      rfl
  | cons id ids ih =>
      obtain ⟨d, hd, h⟩ := bind_eq_ok.1 h
      obtain ⟨later, hl, h⟩ := bind_eq_ok.1 h
      cases h
      rw [ih hl, load_ok ho hd]
      cases hd : p.documents.get? ⟨root, id⟩ <;> simp [hd]

theorem loadBatch_error (ho : p.sessionOpen = true) {root : String} {ids : List EntityId}
    {e : Failure} (h : p.loadBatch root ids = .error e) : p.failing ≠ [] := by
  induction ids with
  | nil => cases h
  | cons id ids ih =>
      rcases bind_eq_error.1 h with h | ⟨d, hd, h⟩
      · exact load_error ho h
      · rcases bind_eq_error.1 h with h | ⟨later, -, h⟩
        · exact ih h
        · cases h

theorem keyed_put (h : Documents.Keyed p.documents) (d : Document) :
    Documents.Keyed (p.put d).documents := h.insert d

theorem keyed_remove (h : Documents.Keyed p.documents) (k : EntityKey) :
    Documents.Keyed (p.remove k).documents := h.erase k

theorem serves (E : Documents) (F : List EntityKey) {faulty : Prop} (hF : F ≠ [] → faulty) :
    provider.Serves E (fun p => p.documents = E ∧ p.failing = F)
      (fun p => p.documents = E ∧ p.failing = F ∧ p.sessionOpen = true) faulty where
  start p hp := ends_modify ⟨hp.1, hp.2, rfl⟩
  get k p hp := by
    obtain ⟨rfl, rfl, ho⟩ := hp
    show Ends (Act.ofExcept (p.load k)) p _ _
    refine ends_ofExcept ?_ ?_
    · intro d h
      exact ⟨load_ok ho h, rfl, rfl, ho⟩
    · intro e h
      exact ⟨hF (load_error ho h), rfl, rfl, ho⟩
  getBatch root ids p hp := by
    obtain ⟨rfl, rfl, ho⟩ := hp
    show Ends (Act.ofExcept (p.loadBatch root ids)) p _ _
    refine ends_ofExcept ?_ ?_
    · intro ds h
      exact ⟨loadBatch_ok ho h, rfl, rfl, ho⟩
    · intro e h
      exact ⟨hF (loadBatch_error ho h), rfl, rfl, ho⟩
  close p hp := by
    obtain ⟨hd, hf, ho⟩ := hp
    refine ends_modify ?_
    simp [closeSession, ho, hd, hf]

end MemoryProvider

namespace MemoryIndex

theorem stages (I : Documents) (faulty : Prop) :
    engine.Stages I (fun D ix => ix.documents = D)
      (fun ms ix => ix = ⟨I, ms⟩) faulty where
  start ix hi := ends_modify (by rw [← hi]; rfl)
  find q ms ix hi := by
    subst hi
    exact ⟨rfl, rfl⟩
  update d ms ix hi := ends_modify (by rw [hi]; rfl)
  delete k ms ix hi := ends_modify (by rw [hi]; rfl)
  commit ms ix hi := ends_modify (by rw [hi]; rfl)
  rollback ms ix hi := ends_modify (by rw [hi]; rfl)
  abandon ms ix hi := by rw [hi]; rfl
  bound ms ix hi := by rw [hi]; exact Nat.le_refl _

end MemoryIndex

namespace Updater

def inMemory (c : Containment) (pageSize : Nat) : Updater MemoryProvider MemoryIndex :=
  ⟨c, MemoryProvider.provider, MemoryIndex.engine, pageSize⟩

theorem make_eq_inMemory (c : Containment) {n : Nat} (hn : 0 < n) :
    Updater.make c MemoryProvider.provider MemoryIndex.engine n = .ok (inMemory c n) := by
  rw [Updater.make, if_neg (Nat.ne_of_gt hn)]
  rfl

end Updater

end ChangeFeed

namespace ChangeFeed.Sample

def containment : Containment :=
  ⟨Containment.enterEmbedding (Containment.enterRoot ∅ "Place") ⟨"Place", "Sorcerer", "sorcerers.id"⟩,
    ["Place"]⟩

def place (id : Int64) (sorcerer : String) : Document :=
  ⟨"Place", ⟨[.integer id]⟩, (∅ : SortedMap String (List String)).insert "sorcerers.id" [sorcerer]⟩

def entities : Documents := (∅ : Documents).insert (place 7 "43").key (place 7 "43")

def indexed : Documents :=
  ((∅ : Documents).insert (place 7 "42").key (place 7 "42")).insert (place 8 "42").key (place 8 "42")

theorem keyed_entities : entities.Keyed := Documents.keyed_empty.insert _

theorem keyed_indexed : indexed.Keyed := (Documents.keyed_empty.insert _).insert _

def sorcererGone : ChangeEvent := ⟨"Sorcerer", ⟨[.integer 42]⟩, .delete⟩

def placeGone : ChangeEvent := ⟨"Place", ⟨[.integer 8]⟩, .delete⟩

def world : Updater.World MemoryProvider MemoryIndex :=
  ⟨{ documents := entities }, ⟨indexed, []⟩, {}⟩

end ChangeFeed.Sample
