import ChangeFeed.Containment
import ChangeFeed.Proofs.Lists
import ChangeFeed.Proofs.SortedMap

namespace ChangeFeed.Containment

variable {entries : SortedMap String (List RootLookup)} {roots : List String}

/-- Lookups lead to the roots only, and those that are direct to the entity itself. -/
structure Lawful (roots : List String) (entries : SortedMap String (List RootLookup)) : Prop where
  declared : ∀ t, ∀ l ∈ lookups entries t, l.rootType ∈ roots
  own : ∀ t, ∀ l ∈ lookups entries t, l.direct → l.rootType = t

def Rooted (entries : SortedMap String (List RootLookup)) (t : String) : Prop :=
  ∃ l ∈ lookups entries t, l.direct

theorem lookups_insert (entries : SortedMap String (List RootLookup)) (t t' : String)
    (ls : List RootLookup) :
    lookups (entries.insert t ls) t' = if t' = t then ls else lookups entries t' := by
  rw [lookups, SortedMap.get?_insert]
  by_cases h : t' = t
  · rw [if_pos h, if_pos h, Option.getD_some]
  · rw [if_neg h, if_neg h, lookups]

theorem mem_addField {root field : String} {ls : List RootLookup} {l : RootLookup}
    (h : l ∈ addField root field ls) :
    l.rootType = root ∧ l.direct = false ∨
      ∃ l' ∈ ls, l'.rootType = l.rootType ∧ l'.direct = l.direct := by
  induction ls with
  | nil =>
      rw [addField, List.mem_singleton] at h
      rw [h]
      exact .inl ⟨rfl, rfl⟩
  | cons x xs ih =>
      have hx : l = x ∨ l ∈ xs →
          ∃ l' ∈ x :: xs, l'.rootType = l.rootType ∧ l'.direct = l.direct :=
        fun h => ⟨l, List.mem_cons.2 h, rfl, rfl⟩
      rw [addField] at h
      by_cases hr : x.rootType = root
      · rw [if_pos hr] at h
        rcases List.mem_cons.1 h with rfl | h
        · refine .inr ⟨x, List.mem_cons_self .., ?_⟩
          split <;> exact ⟨rfl, rfl⟩
        · exact .inr (hx (.inr h))
      · rw [if_neg hr] at h
        rcases List.mem_cons.1 h with h | h
        · exact .inr (hx (.inl h))
        · refine (ih h).imp id ?_
          intro hend
          obtain ⟨l', hl', he⟩ := hend
          exact ⟨l', List.mem_cons_of_mem _ hl', he⟩

theorem exists_direct_addField (root field : String) {ls : List RootLookup}
    (h : ∃ l ∈ ls, l.direct) : ∃ l ∈ addField root field ls, l.direct := by
  induction ls with
  | nil =>
      obtain ⟨l, hl, -⟩ := h
      cases hl
  | cons x xs ih =>
      obtain ⟨l, hl, hd⟩ := h
      rw [addField]
      by_cases hr : x.rootType = root
      · rw [if_pos hr]
        rcases List.mem_cons.1 hl with rfl | hl
        · refine ⟨_, List.mem_cons_self .., ?_⟩
          split <;> exact hd
        · exact ⟨l, List.mem_cons_of_mem _ hl, hd⟩
      · rw [if_neg hr]
        rcases List.mem_cons.1 hl with rfl | hl
        · exact ⟨l, List.mem_cons_self .., hd⟩
        · obtain ⟨l', hl', hd'⟩ := ih ⟨l, hl, hd⟩
          exact ⟨l', List.mem_cons_of_mem _ hl', hd'⟩

theorem lawful_empty (roots : List String) : Lawful roots ∅ where
  declared t l h := by cases h
  own t l h := by cases h

theorem Lawful.enterRoot (h : Lawful roots entries) {root : String} (hr : root ∈ roots) :
    Lawful roots (enterRoot entries root) := by
  have hmem (t : String) (l : RootLookup) (hl : l ∈ lookups (Containment.enterRoot entries root) t) :
      l ∈ lookups entries t ∨ t = root ∧ l = ⟨root, true, []⟩ := by
    rw [Containment.enterRoot, lookups_insert] at hl
    by_cases ht : t = root
    · rw [if_pos ht, ← ht] at hl
      rcases List.mem_append.1 hl with hl | hl
      · exact .inl hl
      · exact .inr ⟨ht, by rw [List.mem_singleton.1 hl, ht]⟩
    · rw [if_neg ht] at hl
      exact .inl hl
  constructor
  · intro t l hl
    rcases hmem t l hl with hl | ⟨-, rfl⟩
    · exact h.declared t l hl
    · exact hr
  · intro t l hl hd
    rcases hmem t l hl with hl | ⟨ht, rfl⟩
    · exact h.own t l hl hd
    · exact ht.symm

theorem Lawful.enterEmbedding (h : Lawful roots entries) {e : Embedding} (hr : e.root ∈ roots) :
    Lawful roots (enterEmbedding entries e) := by
  have hmem (t : String) (l : RootLookup) (hl : l ∈ lookups (Containment.enterEmbedding entries e) t) :
      l.rootType = e.root ∧ l.direct = false ∨
        ∃ l' ∈ lookups entries t, l'.rootType = l.rootType ∧ l'.direct = l.direct := by
    rw [Containment.enterEmbedding, lookups_insert] at hl
    by_cases ht : t = e.entityType
    · rw [if_pos ht] at hl
      rw [ht]
      exact mem_addField hl
    · rw [if_neg ht] at hl
      exact .inr ⟨l, hl, rfl, rfl⟩
  constructor
  · intro t l hl
    rcases hmem t l hl with ⟨ht, -⟩ | ⟨l', hl', ht, -⟩
    · exact ht ▸ hr
    · exact ht ▸ h.declared t l' hl'
  · intro t l hl hd
    rcases hmem t l hl with ⟨-, hf⟩ | ⟨l', hl', ht, hd'⟩
    · rw [hf] at hd
      cases hd
    · exact ht ▸ h.own t l' hl' (hd'.trans hd)

theorem rooted_enterRoot (entries : SortedMap String (List RootLookup)) (root : String) :
    Rooted (enterRoot entries root) root := by
  refine ⟨⟨root, true, []⟩, ?_, rfl⟩
  rw [enterRoot, lookups_insert, if_pos rfl]
  exact List.mem_append_right _ (List.mem_singleton_self _)

theorem Rooted.enterRoot {t : String} (h : Rooted entries t) (root : String) :
    Rooted (enterRoot entries root) t := by
  obtain ⟨l, hl, hd⟩ := h
  refine ⟨l, ?_, hd⟩
  rw [Containment.enterRoot, lookups_insert]
  split
  next ht => exact List.mem_append_left _ (ht ▸ hl)
  next => exact hl

theorem Rooted.enterEmbedding {t : String} (h : Rooted entries t) (e : Embedding) :
    Rooted (enterEmbedding entries e) t := by
  rw [Rooted, Containment.enterEmbedding, lookups_insert]
  split
  next ht => exact exists_direct_addField e.root e.field (ht ▸ h)
  next => exact h

theorem entered_roots (h : Lawful roots entries) {added : List String} (ha : added ⊆ roots) :
    Lawful roots (added.foldl enterRoot entries) ∧
      ∀ t, Rooted entries t ∨ t ∈ added → Rooted (added.foldl enterRoot entries) t := by
  induction added generalizing entries with
  | nil => exact ⟨h, fun t ht => ht.elim id fun h => by cases h⟩
  | cons root added ih =>
      obtain ⟨hroot, ha⟩ := List.cons_subset.1 ha
      obtain ⟨hl, hr⟩ := ih (h.enterRoot hroot) ha
      refine ⟨hl, fun t ht => hr t ?_⟩
      rcases ht with ht | ht
      · exact .inl (ht.enterRoot root)
      · rcases List.mem_cons.1 ht with rfl | ht
        · exact .inl (rooted_enterRoot entries t)
        · exact .inr ht

theorem entered_embeddings (h : Lawful roots entries) {es : List Embedding}
    (he : es.forM (check roots) = .ok ()) :
    Lawful roots (es.foldl enterEmbedding entries) ∧
      ∀ t, Rooted entries t → Rooted (es.foldl enterEmbedding entries) t := by
  induction es generalizing entries with
  | nil => exact ⟨h, fun _ ht => ht⟩
  | cons e es ih =>
      rw [List.forM_eq_forM, List.forM_cons] at he
      obtain ⟨_, hcheck, he⟩ := bind_eq_ok.1 he
      have hroot : e.root ∈ roots := by
        by_cases hmem : e.root ∈ roots
        · exact hmem
        · rw [check, if_pos hmem] at hcheck
          cases hcheck
      obtain ⟨hl, hr⟩ := ih (h.enterEmbedding hroot) he
      exact ⟨hl, fun t ht => hr t (ht.enterEmbedding e)⟩

theorem nodup_addRoot {roots : List String} (h : roots.Nodup) (root : String) :
    (addRoot roots root).Nodup := by
  rw [addRoot]
  split
  next => exact h
  next hr =>
    have hne : ∀ a ∈ roots, a ≠ root := fun a ha he => hr (he ▸ ha)
    exact List.nodup_append.2 ⟨h, List.nodup_singleton root, by simpa using hne⟩

theorem nodup_foldl_addRoot {roots : List String} (h : roots.Nodup) (declared : List String) :
    (declared.foldl addRoot roots).Nodup := by
  induction declared generalizing roots with
  | nil => exact h
  | cons root declared ih => exact ih (nodup_addRoot h root)

theorem map_rootType_addField (root field : String) (ls : List RootLookup) :
    (addField root field ls).map (·.rootType) = addRoot (ls.map (·.rootType)) root := by
  induction ls with
  | nil => rfl
  | cons l ls ih =>
      rw [addField]
      by_cases hl : l.rootType = root
      · have hmem : root ∈ (l :: ls).map (·.rootType) := hl ▸ List.mem_cons_self ..
        rw [if_pos hl, addRoot, if_pos hmem]
        split <;> rfl
      · rw [if_neg hl, List.map_cons, ih, addRoot, addRoot, List.map_cons]
        by_cases hr : root ∈ ls.map (·.rootType)
        · rw [if_pos hr, if_pos (List.mem_cons_of_mem _ hr)]
        · rw [if_neg hr, if_neg (by simpa [Ne.symm hl] using hr), List.cons_append]

theorem lookups_entered {added : List String} (h : added.Nodup) (t : String) :
    lookups (added.foldl enterRoot entries) t =
      lookups entries t ++ if t ∈ added then [⟨t, true, []⟩] else [] := by
  induction added generalizing entries with
  | nil => simp
  | cons root added ih =>
      obtain ⟨hroot, hadded⟩ := List.nodup_cons.1 h
      rw [List.foldl_cons, ih hadded, enterRoot, lookups_insert]
      by_cases ht : t = root
      · subst ht
        simp [hroot]
      · simp [ht]

theorem distinct_embeddings (es : List Embedding)
    (h : ∀ t, ((lookups entries t).map (·.rootType)).Nodup) (t : String) :
    ((lookups (es.foldl enterEmbedding entries) t).map (·.rootType)).Nodup := by
  induction es generalizing entries with
  | nil => exact h t
  | cons e es ih =>
      refine ih fun t => ?_
      rw [enterEmbedding, lookups_insert]
      split
      next => exact map_rootType_addField e.root e.field _ ▸ nodup_addRoot (h e.entityType) e.root
      next => exact h t

theorem build_ok {declared : List String} {embeddings : List Embedding} {c : Containment}
    (h : build declared embeddings = .ok c) :
    Lawful c.rootTypes c.entries ∧ ∀ t, t ∈ c.rootTypes ↔ Rooted c.entries t := by
  obtain ⟨_, hcheck, hc⟩ := bind_eq_ok.1 h
  obtain rfl := Except.ok.inj hc
  dsimp only
  generalize declared.foldl addRoot [] = roots at hcheck
  obtain ⟨hl, hr⟩ := entered_roots (lawful_empty roots) (List.Subset.refl roots)
  obtain ⟨hl', hr'⟩ := entered_embeddings hl hcheck
  refine ⟨hl', fun t => ⟨fun ht => hr' t (hr t (.inr ht)), ?_⟩⟩
  intro hend
  obtain ⟨l, hmem, hd⟩ := hend
  exact hl'.own t l hmem hd ▸ hl'.declared t l hmem

theorem build_distinct {declared : List String} {embeddings : List Embedding} {c : Containment}
    (h : build declared embeddings = .ok c) (t : String) :
    ((c.rootsContaining t).map (·.rootType)).Nodup := by
  obtain ⟨_, -, hc⟩ := bind_eq_ok.1 h
  obtain rfl := Except.ok.inj hc
  refine distinct_embeddings embeddings (fun t => ?_) t
  rw [lookups_entered (nodup_foldl_addRoot List.nodup_nil declared)]
  have hnone : lookups ∅ t = [] := rfl
  rw [hnone, List.nil_append]
  split
  next => exact List.nodup_singleton t
  next => exact List.nodup_nil

theorem countP_direct {declared : List String} {embeddings : List Embedding} {c : Containment}
    (h : build declared embeddings = .ok c) (t : String) :
    (c.rootsContaining t).countP (·.direct) = if c.isRoot t then 1 else 0 := by
  obtain ⟨hlawful, hroot⟩ := build_ok h
  have hdistinct := build_distinct h t
  have hiff : c.isRoot t = true ↔ Rooted c.entries t := by
    rw [isRoot, decide_eq_true_iff]
    exact hroot t
  by_cases ht : Rooted c.entries t
  · obtain ⟨l, hl, hd⟩ := id ht
    have honly : ∀ l' ∈ c.rootsContaining t, l'.direct = true ↔ l' = l := by
      intro l' hl'
      refine ⟨fun hd' => eq_of_key hdistinct hl' hl ?_, fun he => he ▸ hd⟩
      rw [hlawful.own t l' hl' hd', hlawful.own t l hl hd]
    rw [if_pos (hiff.2 ht), List.countP_eq_length_filter,
      filter_eq_singleton (hdistinct.of_map _) hl honly, List.length_singleton]
  · rw [if_neg (mt hiff.1 ht), List.countP_eq_zero]
    exact fun l hl hd => ht ⟨l, hl, hd⟩

end ChangeFeed.Containment
