import ChangeFeed.Proofs.Containment
import ChangeFeed.Proofs.MemoryWorld
import Mathlib.Data.List.Nodup

namespace ChangeFeed

namespace Reindex

section

variable (c : Containment) (E I : Documents)

/-- The key is that of a document which the entity of the event has of its own. -/
def Names (e : ChangeEvent) (k : EntityKey) : Prop := c.isRoot e.entityType ∧ e.key = k

/-- The index holds a document under the key that contains the entity of the event. -/
def Cascades (e : ChangeEvent) (k : EntityKey) : Prop :=
  ∃ d ∈ I.get? k, ∃ l ∈ c.rootsContaining e.entityType,
    l.rootType = k.entityType ∧ ∃ f ∈ l.idFields, d.holds f e.id.term

instance (e : ChangeEvent) (k : EntityKey) : Decidable (Names c e k) :=
  inferInstanceAs (Decidable (_ ∧ _))

instance (e : ChangeEvent) (k : EntityKey) : Decidable (Cascades c I e k) :=
  inferInstanceAs (Decidable (∃ d ∈ I.get? k, _))

/-- What the index holds under a key after the events. -/
def meaning (es : List ChangeEvent) (k : EntityKey) : Option Document :=
  match E.get? k with
  | some d =>
    if ∃ e ∈ es, Active c E e ∧ (Names c e k ∨ Cascades c I e k) then some d else I.get? k
  | none => if ∃ e ∈ es, e.eventType = .delete ∧ Names c e k then none else I.get? k

def cascadeKeys (e : ChangeEvent) : List EntityKey :=
  I.keys.filter fun k => (E.get? k).isSome ∧ Cascades c I e k

def cascaded (es : List ChangeEvent) : List EntityKey :=
  (es.filter fun e => Active c E e).flatMap (cascadeKeys c E I)

/-- What is counted for the events. -/
def tally (es : List ChangeEvent) : BatchOutcome where
  updated :=
    es.countP (fun e => Active c E e ∧ c.isRoot e.entityType ∧ (E.get? e.key).isSome) +
      (cascaded c E I es).length
  deleted := es.countP fun e => e.eventType = .delete ∧ c.isRoot e.entityType ∧ E.get? e.key = none
  skipped := es.countP fun e => ¬ Active c E e
  cascaded := (cascaded c E I es).length

end

variable {declared : List String} {embeddings : List Embedding} {c : Containment} {E I : Documents}

theorem exists_direct_iff (hc : Containment.build declared embeddings = .ok c) (t : String) :
    (∃ l ∈ c.rootsContaining t, l.direct) ↔ c.isRoot t := by
  rw [Containment.isRoot, decide_eq_true_iff]
  exact ((Containment.build_ok hc).2 t).symm

theorem active_of_isRoot (hc : Containment.build declared embeddings = .ok c) {e : ChangeEvent}
    (hr : c.isRoot e.entityType) (h : e.eventType = .delete ∨ (E.get? e.key).isSome) :
    Active c E e := by
  obtain ⟨l, hl, -⟩ := (exists_direct_iff hc e.entityType).2 hr
  exact ⟨List.ne_nil_of_mem hl, h⟩

theorem touches_iff_names_or_cascades (hc : Containment.build declared embeddings = .ok c)
    (hE : E.Keyed) (hI : I.Keyed) {e : ChangeEvent} {k : EntityKey} : Touches c E I e k ↔
      Active c E e ∧ (Names c e k ∨ (E.get? k).isSome ∧ Cascades c I e k) := by
  rw [touches_iff hE hI]
  refine and_congr_right fun _ => ?_
  constructor
  · rintro ⟨l, hl, ⟨hd, hk⟩ | ⟨ht, hk, d, hd, hf⟩⟩
    · exact .inl ⟨(exists_direct_iff hc _).1 ⟨l, hl, hd⟩, hk⟩
    · exact .inr ⟨hk, d, hd, l, hl, ht, hf⟩
  · rintro (⟨hr, hk⟩ | ⟨hk, d, hd, l, hl, ht, hf⟩)
    · obtain ⟨l, hl, hd⟩ := (exists_direct_iff hc _).2 hr
      exact ⟨l, hl, .inl ⟨hd, hk⟩⟩
    · exact ⟨l, hl, .inr ⟨ht, hk, d, hd, hf⟩⟩

theorem get?_reindex_eq_meaning (hc : Containment.build declared embeddings = .ok c) (hE : E.Keyed)
    (hI : I.Keyed) (es : List ChangeEvent) (k : EntityKey) :
    (reindex c E I es).get? k = meaning c E I es k := by
  rw [get?_reindex hE, meaning]
  cases hk : E.get? k with
  | some d => simp only [touches_iff_names_or_cascades hc hE hI, hk, Option.isSome_some, true_and]
  | none =>
      have hiff (e : ChangeEvent) : Touches c E I e k ↔ e.eventType = .delete ∧ Names c e k := by
        rw [touches_iff_names_or_cascades hc hE hI, hk]
        constructor
        · rintro ⟨ha, hn | ⟨hs, -⟩⟩
          · refine ⟨ha.2.resolve_right ?_, hn⟩
            simp [hn.2, hk]
          · cases hs
        · intro h
          exact ⟨active_of_isRoot hc h.2.1 (.inl h.1), .inl h.2⟩
      simp only [hiff]

theorem map_key_refreshed (hE : E.Keyed) (l : RootLookup) (term : String) :
    (refreshed E I l term).map (·.key) =
      ((found I l term).filter fun id => (E.get? ⟨l.rootType, id⟩).isSome).map (⟨l.rootType, ·⟩) := by
  rw [refreshed]
  induction found I l term with
  | nil => rfl
  | cons id ids ih =>
      cases hd : E.get? ⟨l.rootType, id⟩ with
      | none => simp [hd, ih]
      | some d => simp [hd, ih, hE _ d hd]

theorem nodup_key_refreshed (hE : E.Keyed) {ls : List RootLookup} (hls : (ls.map (·.rootType)).Nodup)
    (term : String) : (ls.flatMap fun l => (refreshed E I l term).map (·.key)).Nodup := by
  refine List.nodup_flatMap.2 ⟨?_, ?_⟩
  · intro l _
    rw [map_key_refreshed hE]
    exact ((sortDistinct_nodup _).filter _).map fun id id' h => congrArg (·.id) h
  · refine (List.pairwise_map.1 hls).imp ?_
    intro l l' hne k hk hk'
    simp only [map_key_refreshed hE] at hk hk'
    obtain ⟨id, -, rfl⟩ := List.mem_map.1 hk
    obtain ⟨id', -, he⟩ := List.mem_map.1 hk'
    exact hne (congrArg (·.entityType) he).symm

theorem length_refreshed (hc : Containment.build declared embeddings = .ok c) (hE : E.Keyed)
    (hI : I.Keyed) (e : ChangeEvent) :
    ((c.rootsContaining e.entityType).flatMap fun l => refreshed E I l e.key.id.term).length =
      (cascadeKeys c E I e).length := by
  have hmem (k : EntityKey) : (k ∈ (c.rootsContaining e.entityType).flatMap fun l =>
      (refreshed E I l e.key.id.term).map (·.key)) ↔ k ∈ cascadeKeys c E I e := by
    simp only [List.mem_flatMap, List.mem_map, key_mem_refreshed hE hI, cascadeKeys,
      List.mem_filter, SortedMap.mem_keys, decide_eq_true_eq]
    constructor
    · rintro ⟨l, hl, ht, hk, d, hd, hf⟩
      exact ⟨Option.isSome_of_eq_some hd, hk, d, hd, l, hl, ht, hf⟩
    · rintro ⟨-, hk, d, hd, l, hl, ht, hf⟩
      exact ⟨l, hl, ht, hk, d, hd, hf⟩
  have hnodup :=
    nodup_key_refreshed (I := I) hE (Containment.build_distinct hc e.entityType) e.key.id.term
  have hnodup' : (cascadeKeys c E I e).Nodup := (SortedMap.keys_nodup I).filter _
  have hperm := (List.perm_ext_iff_of_nodup hnodup hnodup').2 hmem
  rw [← hperm.length_eq, ← List.map_flatMap, List.length_map]

theorem lookupsOutcome_eq (k : EntityKey) (ls : List RootLookup) : lookupsOutcome E I k ls =
    { updated := (if (E.get? k).isSome then ls.countP (·.direct) else 0) +
        (ls.flatMap fun l => refreshed E I l k.id.term).length
      deleted := if E.get? k = none then ls.countP (·.direct) else 0
      cascaded := (ls.flatMap fun l => refreshed E I l k.id.term).length } := by
  induction ls with
  | nil => simp [lookupsOutcome]
  | cons l ls ih =>
      rw [lookupsOutcome, List.foldr_cons, ← lookupsOutcome, ih, BatchOutcome.add, lookupOutcome]
      cases E.get? k <;> by_cases hd : l.direct <;> simp [hd] <;> omega

theorem eventOutcome_eq_tally (hc : Containment.build declared embeddings = .ok c) (hE : E.Keyed)
    (hI : I.Keyed) (e : ChangeEvent) : eventOutcome c E I e = tally c E I [e] := by
  rw [eventOutcome, tally, cascaded]
  by_cases ha : Active c E e
  · rw [if_pos ha, lookupsOutcome_eq, Containment.countP_direct hc, length_refreshed hc hE hI]
    cases hk : E.get? e.key with
    | some d => simp [ha, hk]
    | none =>
        have hdelete : e.eventType = .delete := ha.2.resolve_right (by simp [hk])
        simp [ha, hk, hdelete]
  · have hgone (hd : e.eventType = .delete) : c.isRoot e.entityType = false := by
      by_contra hr
      exact ha (active_of_isRoot hc (by simpa using hr) (.inl hd))
    rw [if_neg ha]
    simp +contextual [ha, hgone]

theorem tally_append (as bs : List ChangeEvent) :
    tally c E I (as ++ bs) = (tally c E I as).add (tally c E I bs) := by
  simp only [tally, cascaded, BatchOutcome.add, List.countP_append, List.filter_append,
    List.flatMap_append, List.length_append, BatchOutcome.mk.injEq, and_true]
  omega

theorem outcome_eq_tally (hc : Containment.build declared embeddings = .ok c) (hE : E.Keyed)
    (hI : I.Keyed) (es : List ChangeEvent) : outcome c E I es = tally c E I es := by
  induction es with
  | nil => rfl
  | cons e es ih =>
      rw [outcome, List.foldr_cons, ← outcome, ih, eventOutcome_eq_tally hc hE hI, ← tally_append,
        List.singleton_append]

end Reindex

namespace Updater

open Act Reindex

/-- An updater in memory does what its batch means, with any page size. -/
theorem apply_means {declared : List String} {embeddings : List Embedding} {c : Containment}
    (hc : Containment.build declared embeddings = .ok c) (es : List ChangeEvent)
    {w : World MemoryProvider MemoryIndex} (hE : Documents.Keyed w.provider.documents)
    (hf : w.provider.failing = []) (hI : Documents.Keyed w.index.documents) :
    ∃ J : Documents,
      (∀ k, J.get? k = meaning c w.provider.documents w.index.documents es k) ∧
      ∀ n > 0, ∃ u t, make c MemoryProvider.provider MemoryIndex.engine n = .ok u ∧
        u.apply es w = .ok (tally c w.provider.documents w.index.documents es) t ∧
        t.index.documents = J := by
  refine ⟨reindex c w.provider.documents w.index.documents es,
    get?_reindex_eq_meaning hc hE hI es, fun n hn => ?_⟩
  have hP := MemoryProvider.serves w.provider.documents [] fun h : [] ≠ [] => (h rfl : False)
  have hX := MemoryIndex.stages w.index.documents False
  have hends := apply_ends (u := inMemory c n) hP hX hE hn es (w := w) ⟨⟨rfl, hf⟩, rfl⟩
  obtain ⟨o, t, happly, ho, -, hindex, -⟩ :=
    (hends.mono (fun _ _ h => h) fun _ _ h => h.1).exists_ok
  refine ⟨inMemory c n, t, make_eq_inMemory c hn, ?_, hindex⟩
  rw [happly, ho]
  exact congrArg (EStateM.Result.ok · t) (outcome_eq_tally hc hE hI es)

end Updater

end ChangeFeed

namespace ChangeFeed.Sample

open Reindex Updater

def placeEmbeddings : List Embedding := [⟨"Place", "Sorcerer", "sorcerers.id"⟩]

def removals : List ChangeEvent := [sorcererGone, placeGone, ⟨"Wand", ⟨[.integer 1]⟩, .insert⟩]

theorem apply_means_removals :
    Containment.build ["Place"] placeEmbeddings = .ok containment ∧
      Documents.Keyed world.provider.documents ∧ world.provider.failing = [] ∧
      Documents.Keyed world.index.documents ∧
      ∃ J : Documents, J.get? (place 7 "42").key = some (place 7 "43") ∧
        J.get? (place 8 "42").key = none ∧
        ∀ n > 0, ∃ u t, make containment MemoryProvider.provider MemoryIndex.engine n = .ok u ∧
          u.apply removals world =
            .ok { updated := 1, deleted := 1, skipped := 1, cascaded := 1 } t ∧
          t.index.documents = J := by
  have hc : Containment.build ["Place"] placeEmbeddings = .ok containment := by rfl
  have htally : tally containment entities indexed removals =
      { updated := 1, deleted := 1, skipped := 1, cascaded := 1 } := by decide +kernel
  have hreplaced : meaning containment entities indexed removals (place 7 "42").key =
      some (place 7 "43") := by decide +kernel
  have hremoved : meaning containment entities indexed removals (place 8 "42").key = none := by
    decide +kernel
  refine ⟨hc, keyed_entities, rfl, keyed_indexed, ?_⟩
  obtain ⟨J, hJ, happly⟩ := apply_means hc removals (w := world) keyed_entities rfl keyed_indexed
  refine ⟨J, (hJ _).trans hreplaced, (hJ _).trans hremoved, fun n hn => ?_⟩
  exact htally ▸ happly n hn

end ChangeFeed.Sample
