import ChangeFeed.Index.Memory
import ChangeFeed.ChangeEvent
import ChangeFeed.Containment
import ChangeFeed.Proofs.SortedMap

namespace ChangeFeed

abbrev Documents := SortedMap EntityKey Document

def Documents.Keyed (D : Documents) : Prop := ∀ k d, D.get? k = some d → d.key = k

def ChangeEvent.key (e : ChangeEvent) : EntityKey := ⟨e.entityType, e.id⟩

def Mutation.key : Mutation → EntityKey
  | .upsert d => d.key
  | .delete k => k

/-- The mutation writes what the entities say of its key. -/
def Mutation.Agrees (E : Documents) (m : Mutation) : Prop :=
  match m with
  | .upsert d => E.get? d.key = some d
  | .delete k => E.get? k = none

namespace Documents

theorem keyed_empty : Keyed ∅ := fun k d h => by simp at h

theorem Keyed.insert {D : Documents} (h : Keyed D) (d : Document) : Keyed (D.insert d.key d) := by
  intro k d' hd
  rw [SortedMap.get?_insert] at hd
  split at hd
  next hk => rw [← Option.some.inj hd, hk]
  next => exact h k d' hd

theorem Keyed.erase {D : Documents} (h : Keyed D) (k : EntityKey) : Keyed (D.erase k) := by
  intro k' d hd
  rw [SortedMap.get?_erase] at hd
  split at hd
  next => simp at hd
  next => exact h k' d hd

theorem Keyed.apply {D : Documents} (h : Keyed D) (m : Mutation) :
    Keyed (MemoryIndex.apply D m) := by
  cases m with
  | upsert d => exact h.insert d
  | delete k => exact h.erase k

end Documents

open Documents

namespace Reindex

def found (I : Documents) (l : RootLookup) (term : String) : List EntityId :=
  sortDistinct (l.idFields.flatMap fun f => ((MemoryIndex.mk I []).hits l.rootType f term).map (·.id))

def refreshed (E I : Documents) (l : RootLookup) (term : String) : List Document :=
  (found I l term).filterMap fun id => E.get? ⟨l.rootType, id⟩

def directWrites (E : Documents) (k : EntityKey) (l : RootLookup) : List Mutation :=
  if l.direct then
    match E.get? k with
    | some d => [.upsert d]
    | none => [.delete k]
  else []

def lookupWrites (E I : Documents) (k : EntityKey) (l : RootLookup) : List Mutation :=
  directWrites E k l ++ (refreshed E I l k.id.term).map .upsert

def Active (c : Containment) (E : Documents) (e : ChangeEvent) : Prop :=
  c.rootsContaining e.entityType ≠ [] ∧ (e.eventType = .delete ∨ (E.get? e.key).isSome)

instance (c : Containment) (E : Documents) (e : ChangeEvent) : Decidable (Active c E e) :=
  inferInstanceAs (Decidable (_ ∧ _))

def eventWrites (c : Containment) (E I : Documents) (e : ChangeEvent) : List Mutation :=
  if Active c E e then (c.rootsContaining e.entityType).flatMap (lookupWrites E I e.key) else []

def reindex (c : Containment) (E I : Documents) (es : List ChangeEvent) : Documents :=
  (es.flatMap (eventWrites c E I)).foldl MemoryIndex.apply I

def Touches (c : Containment) (E I : Documents) (e : ChangeEvent) (k : EntityKey) : Prop :=
  ∃ m ∈ eventWrites c E I e, m.key = k

instance (c : Containment) (E I : Documents) (e : ChangeEvent) (k : EntityKey) :
    Decidable (Touches c E I e k) :=
  inferInstanceAs (Decidable (∃ m ∈ eventWrites c E I e, m.key = k))

variable {c : Containment} {E I J : Documents} {e : ChangeEvent} {k : EntityKey}

theorem get?_apply {m : Mutation} (hm : m.Agrees E) (D : Documents) (k : EntityKey) :
    (MemoryIndex.apply D m).get? k = if m.key = k then E.get? k else D.get? k := by
  cases m with
  | upsert d =>
      rw [MemoryIndex.apply, SortedMap.get?_insert]
      by_cases hk : k = d.key
      · subst hk
        simpa [Mutation.key] using hm.symm
      · simp [Mutation.key, hk, Ne.symm hk]
  | delete j =>
      rw [MemoryIndex.apply, SortedMap.get?_erase]
      by_cases hk : k = j
      · subst hk
        simpa [Mutation.key] using hm.symm
      · simp [Mutation.key, hk, Ne.symm hk]

/-- Writes that agree with the entities set the keys they write to what the entities say. -/
theorem get?_foldl_apply {ms : List Mutation} (h : ∀ m ∈ ms, m.Agrees E) (D : Documents)
    (k : EntityKey) : (ms.foldl MemoryIndex.apply D).get? k =
      if ∃ m ∈ ms, m.key = k then E.get? k else D.get? k := by
  induction ms generalizing D with
  | nil => simp
  | cons m ms ih =>
      rw [List.foldl_cons, ih (fun x hx => h x (List.mem_cons_of_mem _ hx)),
        get?_apply (h m (List.mem_cons_self ..))]
      by_cases hm : m.key = k
      · simp [hm]
      · simp [hm]

theorem agrees_upsert (hE : E.Keyed) {d : Document} (h : E.get? k = some d) :
    (Mutation.upsert d).Agrees E := by
  show E.get? d.key = some d
  rw [hE k d h, h]

theorem directWrites_agrees (hE : E.Keyed) (k : EntityKey) (l : RootLookup) :
    ∀ m ∈ directWrites E k l, m.Agrees E := by
  intro m hm
  rw [directWrites] at hm
  split at hm
  · split at hm
    next d hd => rw [List.mem_singleton.1 hm]; exact agrees_upsert hE hd
    next hn => rw [List.mem_singleton.1 hm]; exact hn
  · simp at hm

theorem refreshed_agrees (hE : E.Keyed) (l : RootLookup) (term : String) :
    ∀ d ∈ refreshed E I l term, (Mutation.upsert d).Agrees E := by
  intro d hd
  obtain ⟨id, -, hid⟩ := List.mem_filterMap.1 hd
  exact agrees_upsert hE hid

theorem eventWrites_agrees (hE : E.Keyed) (e : ChangeEvent) :
    ∀ m ∈ eventWrites c E I e, m.Agrees E := by
  intro m hm
  rw [eventWrites] at hm
  split at hm
  · obtain ⟨l, -, hl⟩ := List.mem_flatMap.1 hm
    rcases List.mem_append.1 hl with hl | hl
    · exact directWrites_agrees hE _ _ m hl
    · obtain ⟨d, hd, rfl⟩ := List.mem_map.1 hl
      exact refreshed_agrees hE _ _ d hd
  · simp at hm

theorem get?_reindex (hE : E.Keyed) (es : List ChangeEvent) (k : EntityKey) :
    (reindex c E I es).get? k = if ∃ e ∈ es, Touches c E I e k then E.get? k else I.get? k := by
  have hs : (∃ m ∈ es.flatMap (eventWrites c E I), m.key = k) ↔ ∃ e ∈ es, Touches c E I e k := by
    constructor
    · intro h
      obtain ⟨m, hm, hk⟩ := h
      obtain ⟨e, he, hme⟩ := List.mem_flatMap.1 hm
      exact ⟨e, he, m, hme, hk⟩
    · intro h
      obtain ⟨e, he, m, hme, hk⟩ := h
      exact ⟨m, List.mem_flatMap.2 ⟨e, he, hme⟩, hk⟩
  have ha : ∀ m ∈ es.flatMap (eventWrites c E I), m.Agrees E := by
    intro m hm
    obtain ⟨e, -, he⟩ := List.mem_flatMap.1 hm
    exact eventWrites_agrees hE e m he
  simp only [reindex, get?_foldl_apply ha, hs]

theorem keyed_foldl_apply {D : Documents} (hD : D.Keyed) (ms : List Mutation) :
    Documents.Keyed (ms.foldl MemoryIndex.apply D) := by
  induction ms generalizing D with
  | nil => exact hD
  | cons m ms ih => exact ih (hD.apply m)

theorem keyed_reindex (hI : I.Keyed) (es : List ChangeEvent) : (reindex c E I es).Keyed :=
  keyed_foldl_apply hI _

theorem mem_found (hI : I.Keyed) {l : RootLookup} {term : String} {id : EntityId} :
    id ∈ found I l term ↔
      ∃ d, I.get? ⟨l.rootType, id⟩ = some d ∧ ∃ f ∈ l.idFields, d.holds f term := by
  rw [found]
  rw [mem_sortDistinct, List.mem_flatMap]
  constructor
  · intro h
    obtain ⟨f, hf, hid⟩ := h
    obtain ⟨d, hd, rfl⟩ := List.mem_map.1 hid
    obtain ⟨hv, hp⟩ := List.mem_filter.1 hd
    obtain ⟨k, hk⟩ := SortedMap.mem_values.1 hv
    simp only [Bool.and_eq_true, decide_eq_true_eq] at hp
    refine ⟨d, ?_, f, hf, hp.2⟩
    rw [← hp.1, ← hk, ← hI k d hk]
    rfl
  · intro h
    obtain ⟨d, hd, f, hf, hv⟩ := h
    have hk := hI _ d hd
    have ht : d.entityType = l.rootType := congrArg (·.entityType) hk
    refine ⟨f, hf, List.mem_map.2 ⟨d, ?_, congrArg (·.id) hk⟩⟩
    exact List.mem_filter.2 ⟨SortedMap.mem_values.2 ⟨_, hd⟩, by simp [ht, hv]⟩

theorem key_mem_directWrites (hE : E.Keyed) {j : EntityKey} {l : RootLookup} :
    (∃ m ∈ directWrites E j l, m.key = k) ↔ l.direct ∧ j = k := by
  rw [directWrites]
  by_cases hl : l.direct
  · cases hj : E.get? j with
    | none => simp [hl, Mutation.key]
    | some d => simp [hl, Mutation.key, hE j d hj]
  · simp [hl]

theorem key_mem_refreshed (hE : E.Keyed) (hI : I.Keyed) {l : RootLookup} {term : String} :
    (∃ d ∈ refreshed E I l term, d.key = k) ↔
      l.rootType = k.entityType ∧ (E.get? k).isSome ∧
        ∃ d, I.get? k = some d ∧ ∃ f ∈ l.idFields, d.holds f term := by
  constructor
  · intro h
    obtain ⟨d, hd, rfl⟩ := h
    obtain ⟨id, hid, hd⟩ := List.mem_filterMap.1 hd
    have hk := hE _ d hd
    rw [hk]
    exact ⟨rfl, by rw [hd]; rfl, (mem_found hI).1 hid⟩
  · intro h
    obtain ⟨ht, he, hf⟩ := h
    obtain ⟨d, hd⟩ := Option.isSome_iff_exists.1 he
    have hk : k = ⟨l.rootType, k.id⟩ := by rw [ht]
    refine ⟨d, List.mem_filterMap.2 ⟨k.id, (mem_found hI).2 ?_, ?_⟩, hE k d hd⟩
    · rwa [← hk]
    · rwa [← hk]

theorem touches_iff (hE : E.Keyed) (hI : I.Keyed) : Touches c E I e k ↔
    Active c E e ∧ ∃ l ∈ c.rootsContaining e.entityType, (l.direct ∧ e.key = k) ∨
      (l.rootType = k.entityType ∧ (E.get? k).isSome ∧
        ∃ d, I.get? k = some d ∧ ∃ f ∈ l.idFields, d.holds f e.id.term) := by
  have hl (l : RootLookup) : (∃ m ∈ lookupWrites E I e.key l, m.key = k) ↔ (l.direct ∧ e.key = k) ∨
      (l.rootType = k.entityType ∧ (E.get? k).isSome ∧
        ∃ d, I.get? k = some d ∧ ∃ f ∈ l.idFields, d.holds f e.id.term) := by
    rw [← key_mem_directWrites hE, ← key_mem_refreshed hE hI]
    constructor
    · intro hend
      obtain ⟨m, hm, hk⟩ := hend
      rcases List.mem_append.1 hm with hm | hm
      · exact .inl ⟨m, hm, hk⟩
      · obtain ⟨d, hd, rfl⟩ := List.mem_map.1 hm
        exact .inr ⟨d, hd, hk⟩
    · rintro (⟨m, hm, hk⟩ | ⟨d, hd, hk⟩)
      · exact ⟨m, List.mem_append_left _ hm, hk⟩
      · exact ⟨.upsert d, List.mem_append_right _ (List.mem_map_of_mem hd), hk⟩
  rw [Touches, eventWrites]
  by_cases ha : Active c E e
  · simp only [ha, if_true, true_and, List.mem_flatMap]
    constructor
    · intro hend
      obtain ⟨m, ⟨l, hm, hw⟩, hk⟩ := hend
      exact ⟨l, hm, (hl l).1 ⟨m, hw, hk⟩⟩
    · intro hend
      obtain ⟨l, hm, h⟩ := hend
      obtain ⟨m, hw, hk⟩ := (hl l).2 h
      exact ⟨m, ⟨l, hm, hw⟩, hk⟩
  · simp [ha]

theorem touches_congr (hE : E.Keyed) (hI : I.Keyed) (hJ : J.Keyed) (h : I.get? k = J.get? k) :
    Touches c E I e k ↔ Touches c E J e k := by
  rw [touches_iff hE hI, touches_iff hE hJ, h]

theorem reindex_append (hE : E.Keyed) (hI : I.Keyed) (as bs : List ChangeEvent) :
    reindex c E (reindex c E I as) bs = reindex c E I (as ++ bs) := by
  refine SortedMap.ext_get? fun k => ?_
  have hJ : (reindex c E I as).Keyed := keyed_reindex hI as
  rw [get?_reindex hE bs, get?_reindex hE (as ++ bs)]
  by_cases ha : ∃ e ∈ as, Touches c E I e k
  · -- Once a key says what the entities say, later events leave it at that.
    obtain ⟨e, he, ht⟩ := ha
    have hk : (reindex c E I as).get? k = E.get? k := by
      rw [get?_reindex hE, if_pos ⟨e, he, ht⟩]
    rw [hk, ite_self, if_pos ⟨e, List.mem_append_left _ he, ht⟩]
  · -- A key that no event has touched yet is touched by the same events as before.
    have hk : (reindex c E I as).get? k = I.get? k := by rw [get?_reindex hE, if_neg ha]
    have hs : (∃ e ∈ bs, Touches c E (reindex c E I as) e k) ↔ ∃ e ∈ as ++ bs, Touches c E I e k := by
      constructor
      · intro h
        obtain ⟨e, he, ht⟩ := h
        exact ⟨e, List.mem_append_right _ he, (touches_congr hE hJ hI hk).1 ht⟩
      · intro h
        obtain ⟨e, he, ht⟩ := h
        rcases List.mem_append.1 he with he | he
        · exact absurd ⟨e, he, ht⟩ ha
        · exact ⟨e, he, (touches_congr hE hJ hI hk).2 ht⟩
    simp only [hk, hs]

theorem reindex_congr (hE : E.Keyed) {as bs : List ChangeEvent} (h : ∀ e, e ∈ as ↔ e ∈ bs) :
    reindex c E I as = reindex c E I bs := by
  refine SortedMap.ext_get? fun k => ?_
  rw [get?_reindex hE, get?_reindex hE]
  simp only [h]

theorem reindex_idem (hE : E.Keyed) (hI : I.Keyed) (es : List ChangeEvent) :
    reindex c E (reindex c E I es) es = reindex c E I es := by
  rw [reindex_append hE hI]
  exact reindex_congr hE fun e => by simp

end Reindex

end ChangeFeed
