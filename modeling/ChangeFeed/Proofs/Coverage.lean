import ChangeFeed.Proofs.Containment
import ChangeFeed.Proofs.Reindex

namespace ChangeFeed

open Reindex

/-- What the events of a change must tell: each entity that was removed, each root document that was
created, and of each one that was replaced either the document itself or an entity whose id stood in
it, where the containment looks for it. -/
structure Announced (c : Containment) (E E' : Documents) (es : List ChangeEvent) : Prop where
  removed : ∀ k, (E.get? k).isSome → E'.get? k = none → ∃ e ∈ es, e.key = k ∧ e.eventType = .delete
  created : ∀ k, k.entityType ∈ c.rootTypes → E.get? k = none → (E'.get? k).isSome →
    ∃ e ∈ es, e.key = k
  replaced : ∀ k d d', k.entityType ∈ c.rootTypes → E.get? k = some d → E'.get? k = some d' → d ≠ d' →
    (∃ e ∈ es, e.key = k) ∨
      ∃ e ∈ es, (e.eventType = .delete ∨ (E.get? e.key).isSome ∨ (E'.get? e.key).isSome) ∧
        ∃ l ∈ c.rootsContaining e.entityType,
          l.rootType = k.entityType ∧ ∃ f ∈ l.idFields, d.holds f e.id.term

def Documents.ofRoots (c : Containment) (E : Documents) : Documents :=
  E.filter fun k _ => k.entityType ∈ c.rootTypes

namespace Coverage

/-- The index says of a key what the entities say, or some event will touch it. -/
def Covered (c : Containment) (E I : Documents) (es : List ChangeEvent) (k : EntityKey) : Prop :=
  I.get? k = E.get? k ∨ ∃ e ∈ es, Touches c E I e k

/-- An event of an entity leads to a document, provided it is not skipped and the document exists. -/
def Reaches (c : Containment) (I : Documents) (j k : EntityKey) : Prop :=
  ∃ l ∈ c.rootsContaining j.entityType, (l.direct ∧ j = k) ∨
    (l.rootType = k.entityType ∧ ∃ d, I.get? k = some d ∧ ∃ f ∈ l.idFields, d.holds f j.id.term)

variable {c : Containment} {E E' I : Documents} {es old new : List ChangeEvent} {e : ChangeEvent}
  {k : EntityKey}

theorem active_of_lookup {l : RootLookup} (hl : l ∈ c.rootsContaining e.entityType)
    (h : e.eventType = .delete ∨ (E.get? e.key).isSome) : Active c E e :=
  ⟨List.ne_nil_of_mem hl, h⟩

theorem touches_own (hE : E.Keyed) (hI : I.Keyed) (hc : Containment.Rooted c.entries k.entityType)
    (hk : e.key = k) (h : e.eventType = .delete ∨ (E.get? k).isSome) : Touches c E I e k := by
  subst hk
  obtain ⟨l, hl, hd⟩ := hc
  exact (touches_iff hE hI).2 ⟨active_of_lookup hl h, l, hl, .inl ⟨hd, rfl⟩⟩

theorem touches_of_reaches (hE : E.Keyed) (hI : I.Keyed) (hk : (E.get? k).isSome)
    (hr : Reaches c I e.key k) (h : e.eventType = .delete ∨ (E.get? e.key).isSome) :
    Touches c E I e k := by
  obtain ⟨l, hl, hr⟩ := hr
  refine (touches_iff hE hI).2 ⟨active_of_lookup hl h, l, hl, ?_⟩
  rcases hr with hr | ⟨ht, hd⟩
  · exact .inl hr
  · exact .inr ⟨ht, hk, hd⟩

theorem reaches_of_touches (hE : E.Keyed) (hI : I.Keyed) (h : Touches c E I e k) :
    Reaches c I e.key k := by
  obtain ⟨-, l, hl, h | ⟨ht, -, hd⟩⟩ := (touches_iff hE hI).1 h
  · exact ⟨l, hl, .inl h⟩
  · exact ⟨l, hl, .inr ⟨ht, hd⟩⟩

theorem touched_of_reaches (hE' : E'.Keyed) (hI : I.Keyed) (ha : Announced c E E' new)
    (hk : (E'.get? k).isSome) (he : e ∈ old ++ new) (hr : Reaches c I e.key k)
    (h : e.eventType = .delete ∨ (E.get? e.key).isSome ∨ (E'.get? e.key).isSome) :
    ∃ e ∈ old ++ new, Touches c E' I e k := by
  by_cases hafter : e.eventType = .delete ∨ (E'.get? e.key).isSome
  · exact ⟨e, he, touches_of_reaches hE' hI hk hr hafter⟩
  · -- The event would be skipped, but the entity was removed, which has an event of its own.
    obtain ⟨hdelete, hgone⟩ := not_or.1 hafter
    have hbefore : (E.get? e.key).isSome := (h.resolve_left hdelete).resolve_right hgone
    obtain ⟨x, hx, hkey, hxd⟩ := ha.removed e.key hbefore (by simpa using hgone)
    refine ⟨x, List.mem_append_right _ hx, touches_of_reaches hE' hI hk ?_ (.inl hxd)⟩
    rw [hkey]
    exact hr

theorem Covered.change (hE : E.Keyed) (hE' : E'.Keyed) (hI : I.Keyed)
    (hc : ∀ t, t ∈ c.rootTypes ↔ Containment.Rooted c.entries t) (ha : Announced c E E' new)
    (hroot : k.entityType ∈ c.rootTypes) (h : Covered c E I old k) :
    Covered c E' I (old ++ new) k := by
  by_cases hsame : I.get? k = E'.get? k
  · exact .inl hsame
  refine .inr ?_
  have hrooted := (hc k.entityType).1 hroot
  have hown : ∀ e ∈ new, e.key = k → (e.eventType = .delete ∨ (E'.get? k).isSome) →
      ∃ e ∈ old ++ new, Touches c E' I e k := by
    intro e he hk h
    exact ⟨e, List.mem_append_right _ he, touches_own hE' hI hrooted hk h⟩
  cases hk' : E'.get? k with
  | none =>
      by_cases hk : (E.get? k).isSome
      · obtain ⟨e, he, hkey, hd⟩ := ha.removed k hk hk'
        exact hown e he hkey (.inl hd)
      · -- The document was gone before, and its deletion is still pending.
        have hk : E.get? k = none := by simpa using hk
        rcases h with h | ⟨e, he, ht⟩
        · exact absurd (h.trans (hk.trans hk'.symm)) hsame
        · obtain ⟨⟨-, hactive⟩, l, -, ⟨-, hkey⟩ | ⟨-, hsome, -⟩⟩ := (touches_iff hE hI).1 ht
          · have hd : e.eventType = .delete := by
              rcases hactive with hd | hsome
              · exact hd
              · rw [hkey, hk] at hsome
                cases hsome
            exact ⟨e, List.mem_append_left _ he, touches_own hE' hI hrooted hkey (.inl hd)⟩
          · rw [hk] at hsome
            cases hsome
  | some d' =>
      have hsome : (E'.get? k).isSome := by rw [hk']; rfl
      rcases h with h | ⟨e, he, ht⟩
      · cases hk : E.get? k with
        | none =>
            obtain ⟨e, he, hkey⟩ := ha.created k hroot hk hsome
            exact hown e he hkey (.inr hsome)
        | some d =>
            have hne : d ≠ d' := by
              rintro rfl
              exact hsame (h.trans (hk.trans hk'.symm))
            rcases ha.replaced k d d' hroot hk hk' hne with ⟨e, he, hkey⟩ | ⟨e, he, hex, l, hl, ht, hf⟩
            · exact hown e he hkey (.inr hsome)
            · have hr : Reaches c I e.key k := ⟨l, hl, .inr ⟨ht, d, h.trans hk, hf⟩⟩
              exact touched_of_reaches hE' hI ha hsome (List.mem_append_right _ he) hr hex
      · have hactive := ((touches_iff hE hI).1 ht).1.2
        exact touched_of_reaches hE' hI ha hsome (List.mem_append_left _ he)
          (reaches_of_touches hE hI ht) (hactive.imp id .inl)

theorem Covered.reindex (hE : E.Keyed) (hI : I.Keyed) (h : Covered c E I old k)
    (hsub : ∀ e ∈ old, e ∈ es ∨ e ∈ new) : Covered c E (reindex c E I es) new k := by
  have hget : (Reindex.reindex c E I es).get? k = _ := get?_reindex hE es k
  by_cases ht : ∃ e ∈ es, Touches c E I e k
  · rw [if_pos ht] at hget
    exact .inl hget
  rw [if_neg ht] at hget
  rcases h with h | ⟨e, he, h⟩
  · exact .inl (hget.trans h)
  · rcases hsub e he with hmem | hmem
    · exact absurd ⟨e, hmem, h⟩ ht
    · exact .inr ⟨e, hmem, (touches_congr hE (keyed_reindex hI es) hI hget).2 h⟩

theorem root_of_touches (hE : E.Keyed) (hI : I.Keyed)
    (hc : Containment.Lawful c.rootTypes c.entries) (h : Touches c E I e k) :
    k.entityType ∈ c.rootTypes := by
  obtain ⟨-, l, hl, ⟨hd, rfl⟩ | ⟨ht, -⟩⟩ := (touches_iff hE hI).1 h
  · have ht : l.rootType = e.key.entityType := hc.own _ l hl hd
    exact ht ▸ hc.declared _ l hl
  · exact ht ▸ hc.declared _ l hl

/-- The index holds documents of root types only, and all of these are covered. -/
structure Tracks (c : Containment) (E I : Documents) (es : List ChangeEvent) : Prop where
  entities : E.Keyed
  indexed : I.Keyed
  foreign : ∀ k, k.entityType ∉ c.rootTypes → I.get? k = none
  covered : ∀ k, k.entityType ∈ c.rootTypes → Covered c E I es k

theorem get?_ofRoots (c : Containment) (E : Documents) (k : EntityKey) :
    (E.ofRoots c).get? k = if k.entityType ∈ c.rootTypes then E.get? k else none := by
  rw [Documents.ofRoots, SortedMap.get?_filter]
  by_cases h : k.entityType ∈ c.rootTypes
  · cases hk : E.get? k <;> simp [h]
  · cases hk : E.get? k <;> simp [h]

theorem tracks_ofRoots (hE : E.Keyed) : Tracks c E (E.ofRoots c) [] where
  entities := hE
  indexed k d hd := by
    rw [get?_ofRoots] at hd
    split at hd
    next => exact hE k d hd
    next => cases hd
  foreign k hk := by rw [get?_ofRoots, if_neg hk]
  covered k hk := by
    refine .inl ?_
    rw [get?_ofRoots, if_pos hk]

theorem Tracks.change (h : Tracks c E I old) (hE' : E'.Keyed)
    (hc : ∀ t, t ∈ c.rootTypes ↔ Containment.Rooted c.entries t) (ha : Announced c E E' new) :
    Tracks c E' I (old ++ new) where
  entities := hE'
  indexed := h.indexed
  foreign := h.foreign
  covered k hk := (h.covered k hk).change h.entities hE' h.indexed hc ha hk

theorem Tracks.reindex (h : Tracks c E I old) (hc : Containment.Lawful c.rootTypes c.entries)
    (hsub : ∀ e ∈ old, e ∈ es ∨ e ∈ new) : Tracks c E (reindex c E I es) new where
  entities := h.entities
  indexed := keyed_reindex h.indexed es
  foreign k hk := by
    rw [get?_reindex h.entities, if_neg, h.foreign k hk]
    intro hend
    obtain ⟨e, -, ht⟩ := hend
    exact hk (root_of_touches h.entities h.indexed hc ht)
  covered k hk := (h.covered k hk).reindex h.entities h.indexed hsub

theorem Tracks.eq_ofRoots (h : Tracks c E I []) : I = E.ofRoots c := by
  refine SortedMap.ext_get? fun k => ?_
  rw [get?_ofRoots]
  by_cases hk : k.entityType ∈ c.rootTypes
  · rw [if_pos hk]
    rcases h.covered k hk with h | ⟨e, he, -⟩
    · exact h
    · cases he
  · rw [if_neg hk, h.foreign k hk]

end Coverage

end ChangeFeed
