import ChangeFeed.Proofs.Ends
import ChangeFeed.Proofs.Reindex
import ChangeFeed.Updater

namespace ChangeFeed

open Act Reindex

variable {π ι : Type}

namespace BatchOutcome

def add (a b : BatchOutcome) : BatchOutcome where
  updated := a.updated + b.updated
  deleted := a.deleted + b.deleted
  skipped := a.skipped + b.skipped
  cascaded := a.cascaded + b.cascaded

theorem add_assoc (a b c : BatchOutcome) : (a.add b).add c = a.add (b.add c) := by
  simp only [add, Nat.add_assoc]

theorem zero_add (a : BatchOutcome) : BatchOutcome.add {} a = a := by
  simp only [add, Nat.zero_add]

end BatchOutcome

namespace Reindex

def lookupOutcome (E I : Documents) (k : EntityKey) (l : RootLookup) : BatchOutcome where
  updated := (if l.direct ∧ (E.get? k).isSome then 1 else 0) + (refreshed E I l k.id.term).length
  deleted := if l.direct ∧ E.get? k = none then 1 else 0
  cascaded := (refreshed E I l k.id.term).length

def lookupsOutcome (E I : Documents) (k : EntityKey) (ls : List RootLookup) : BatchOutcome :=
  ls.foldr (fun l o => (lookupOutcome E I k l).add o) {}

def eventOutcome (c : Containment) (E I : Documents) (e : ChangeEvent) : BatchOutcome :=
  if Active c E e then lookupsOutcome E I e.key (c.rootsContaining e.entityType) else { skipped := 1 }

def outcome (c : Containment) (E I : Documents) (es : List ChangeEvent) : BatchOutcome :=
  es.foldr (fun e o => (eventOutcome c E I e).add o) {}

end Reindex

/-- The provider answers from `E`. Its state is `Idle` between sessions and `Open` in one. Calls fail
only if `faulty`, and a call that fails changes nothing that matters. -/
structure EntityProvider.Serves (P : EntityProvider π) (E : Documents) (Idle Open : π → Prop)
    (faulty : Prop) : Prop where
  start : ∀ s, Idle s → Ends P.start s (fun _ t => Open t) fun _ t => faulty ∧ Idle t
  get : ∀ k s, Open s →
    Ends (P.get k) s (fun d t => d = E.get? k ∧ Open t) fun _ t => faulty ∧ Open t
  getBatch : ∀ root ids s, Open s →
    Ends (P.getBatch root ids) s
      (fun ds t => ds = ids.filterMap (fun id => E.get? ⟨root, id⟩) ∧ Open t)
      fun _ t => faulty ∧ Open t
  close : ∀ s, Open s → Ends P.close s (fun _ t => Idle t) fun _ t => faulty ∧ Idle t

/-- The index holds `I`, and finds what `I` holds. Its state is `Idle` between transactions, with the
documents committed, and `Staged` in one, with the mutations so far. -/
structure IndexEngine.Stages (X : IndexEngine ι) (I : Documents) (Idle : Documents → ι → Prop)
    (Staged : List Mutation → ι → Prop) (faulty : Prop) : Prop where
  start : ∀ s, Idle I s → Ends X.start s (fun _ t => Staged [] t) fun _ t => faulty ∧ Idle I t
  find : ∀ q ms s, Staged ms s →
    Ends (X.find q) s (fun ids t => ids = (MemoryIndex.mk I []).find q ∧ Staged ms t)
      fun _ t => faulty ∧ Staged ms t
  update : ∀ d ms s, Staged ms s →
    Ends (X.update d) s (fun _ t => Staged (ms ++ [.upsert d]) t) fun _ t => faulty ∧ Staged ms t
  delete : ∀ k ms s, Staged ms s →
    Ends (X.delete k) s (fun _ t => Staged (ms ++ [.delete k]) t) fun _ t => faulty ∧ Staged ms t
  commit : ∀ ms s, Staged ms s →
    Ends X.commit s (fun _ t => Idle (ms.foldl MemoryIndex.apply I) t) fun _ t => faulty ∧ Idle I t
  rollback : ∀ ms s, Staged ms s →
    Ends X.rollback s (fun _ t => Idle I t) fun _ t => faulty ∧ Idle I t
  abandon : ∀ ms s, Staged ms s → Idle I (X.abandon s)
  bound : ∀ ms s, Staged ms s → I.size ≤ X.bound s

namespace Updater

variable {u : Updater π ι} {E I : Documents} {Idle Open : π → Prop} {At : Documents → ι → Prop}
  {Staged : List Mutation → ι → Prop} {faulty : Prop} {ms : List Mutation}

theorem make_ok {c : Containment} {P : EntityProvider π} {X : IndexEngine ι} {n : Nat}
    (h : make c P X n = .ok u) : 0 < n ∧ u = ⟨c, P, X, n⟩ := by
  rw [make] at h
  by_cases hn : n = 0
  · rw [if_pos hn] at h
    cases h
  · rw [if_neg hn] at h
    cases h
    exact ⟨Nat.pos_of_ne_zero hn, rfl⟩

theorem joint_findAll (u : Updater π ι) (root field value : String) (fuel first : Nat) :
    u.joint.findAll root field value fuel first = onSnd (u.findAll root field value fuel first) := by
  induction fuel generalizing first with
  | zero => rfl
  | succ fuel ih =>
      rw [findAll, findAll, onSnd_bind]
      refine congrArg (onSnd _ >>= ·) (funext fun page => ?_)
      by_cases hshort : page.length < u.pageSize
      · rw [if_pos hshort]
        exact if_pos hshort
      · rw [if_neg hshort, onSnd_bind, ← ih]
        exact if_neg hshort

theorem joint_containing (u : Updater π ι) (lookup : RootLookup) (value : String) :
    u.joint.containing lookup value = onSnd (u.containing lookup value) := by
  rw [containing, containing, onSnd_get_bind]
  refine congrArg (get >>= ·) (funext fun s => ?_)
  rw [onSnd_bind, onSnd_mapM]
  simp only [joint_findAll]
  rfl

theorem joint_replaceAll (u : Updater π ι) (documents : List Document) :
    u.joint.replaceAll documents = onSnd (u.replaceAll documents) := by
  induction documents with
  | nil => rfl
  | cons d documents ih =>
      show (u.joint.index.update d >>= fun _ => u.joint.replaceAll documents) =
        onSnd (u.index.update d >>= fun _ => u.replaceAll documents)
      rw [onSnd_bind, ih]
      rfl

theorem findAll_ends (hX : u.index.Stages I At Staged faulty) (hn : 0 < u.pageSize)
    (root field value : String) (fuel first : Nat) {s : ι} (hs : Staged ms s)
    (hf : ((MemoryIndex.mk I []).hits root field value).length - first < fuel) :
    Ends (u.findAll root field value fuel first) s
      (fun ids t => ids = (((MemoryIndex.mk I []).hits root field value).drop first).map (·.id) ∧
        Staged ms t)
      fun _ t => faulty ∧ Staged ms t := by
  induction fuel generalizing first s with
  | zero => omega
  | succ fuel ih =>
      rw [Updater.findAll]
      refine (hX.find _ ms s hs).bind ?_
      intro page t h
      obtain ⟨rfl, ht⟩ := h
      generalize hh : (MemoryIndex.mk I []).hits root field value = hits at hf ih ⊢
      have hp : (MemoryIndex.mk I []).find ⟨root, field, value, first, u.pageSize⟩ =
          ((hits.drop first).take u.pageSize).map (·.id) := by
        simp only [MemoryIndex.find, hh]
      rw [hp]
      by_cases hshort : (hits.drop first).length < u.pageSize
      · have hl : (((hits.drop first).take u.pageSize).map (·.id)).length < u.pageSize := by
          simp only [List.length_map, List.length_take]
          omega
        rw [if_pos hl]
        refine ⟨?_, ht⟩
        rw [List.take_of_length_le (by omega)]
      · have hl : ¬ (((hits.drop first).take u.pageSize).map (·.id)).length < u.pageSize := by
          simp only [List.length_map, List.length_take]
          omega
        rw [if_neg hl]
        rw [List.length_drop] at hshort
        refine (ih (first + u.pageSize) ht (by omega)).bind ?_
        intro later t' h
        obtain ⟨rfl, ht'⟩ := h
        refine ⟨?_, ht'⟩
        rw [← List.map_append, ← List.drop_drop, List.take_append_drop]

theorem containing_ends (hX : u.index.Stages I At Staged faulty) (hn : 0 < u.pageSize)
    (l : RootLookup) (value : String) {s : ι} (hs : Staged ms s) :
    Ends (u.containing l value) s (fun ids t => ids = found I l value ∧ Staged ms t)
      fun _ t => faulty ∧ Staged ms t := by
  rw [Updater.containing]
  refine ends_get_bind ?_
  have hb (field : String) :
      ((MemoryIndex.mk I []).hits l.rootType field value).length - 0 < u.index.bound s + 1 := by
    have h1 := hX.bound ms s hs
    have h2 : ((MemoryIndex.mk I []).hits l.rootType field value).length ≤ I.size := by
      have h := List.length_filter_le (fun d : Document => d.entityType = l.rootType && d.holds field value)
        (MemoryIndex.mk I []).snapshot
      simpa [MemoryIndex.hits, MemoryIndex.snapshot, SortedMap.values, SortedMap.size] using h
    omega
  have hpages (field : String) (t : ι) (ht : Staged ms t) :
      Ends (u.findAll l.rootType field value (u.index.bound s + 1) 0) t
        (fun ids t => (id ids =
            ((MemoryIndex.mk I []).hits l.rootType field value).map (·.id) ∧ True) ∧ Staged ms t)
        fun _ t => faulty ∧ Staged ms t := by
    refine (findAll_ends hX hn l.rootType field value _ 0 ht (hb field)).mono ?_ fun _ _ h => h
    intro ids t' hend
    obtain ⟨hids, ht'⟩ := hend
    exact ⟨⟨hids, trivial⟩, ht'⟩
  refine (Ends.mapM (fun field (_ : field ∈ l.idFields) => hpages field) hs).bind ?_
  intro pages t hend
  obtain ⟨⟨hp, -⟩, ht⟩ := hend
  rw [List.map_id] at hp
  refine ends_pure ⟨?_, ht⟩
  rw [hp, found, List.flatMap_def]

theorem replaceAll_ends (hX : u.index.Stages I At Staged faulty) (ds : List Document) {s : ι}
    (hs : Staged ms s) :
    Ends (u.replaceAll ds) s (fun _ t => Staged (ms ++ ds.map .upsert) t)
      fun _ t => faulty ∧ ∃ ms, Staged ms t := by
  induction ds generalizing ms s with
  | nil => exact ends_pure (by simpa using hs)
  | cons d ds ih =>
      show Ends (u.index.update d >>= fun _ => u.replaceAll ds) s _ _
      refine (hX.update d ms s hs).seq (fun _ _ h => ⟨h.1, ms, h.2⟩) ?_
      intro _ t ht
      simpa using ih ht

theorem wanted_eq_self {root : String} {chunk done : List EntityId} {ds : List Document}
    (h : ∀ d ∈ ds, d.entityType = root ∧ d.id ∈ chunk) (hd : ((ds.map (·.id)) ++ done).Nodup) :
    wanted root chunk done ds = ds := by
  induction ds generalizing done with
  | nil => rfl
  | cons d ds ih =>
      obtain ⟨ht, hc⟩ := h d (List.mem_cons_self ..)
      have hnd : d.id ∉ done := by
        intro hm
        exact (List.nodup_cons.1 hd).1 (List.mem_append_right _ hm)
      have hrest : ((ds.map (·.id)) ++ d.id :: done).Nodup := List.perm_middle.nodup_iff.2 hd
      have hw := ih (fun x hx => h x (List.mem_cons_of_mem _ hx)) hrest
      simp [wanted, ht, hc, hnd, hw]

theorem map_id_loaded (hE : E.Keyed) (root : String) (ids : List EntityId) :
    (ids.filterMap fun id => E.get? ⟨root, id⟩).map (·.id) =
      ids.filter fun id => (E.get? ⟨root, id⟩).isSome := by
  induction ids with
  | nil => rfl
  | cons id ids ih =>
      cases hd : E.get? ⟨root, id⟩ with
      | none => simp [hd, ih]
      | some d =>
          have hid : d.id = id := congrArg (·.id) (hE _ d hd)
          simp [hd, ih, hid]

theorem refreshChunks_ends (hP : u.provider.Serves E Idle Open faulty)
    (hX : u.index.Stages I At Staged faulty) (hE : E.Keyed) (root : String) (cs : List (List EntityId))
    (done : List EntityId) (hnd : (cs.flatten ++ done).Nodup) {s : π × ι} (hs : Open s.1 ∧ Staged ms s.2) :
    Ends (u.joint.refreshChunks root done cs) s
      (fun n t => n = (cs.flatten.filterMap fun id => E.get? ⟨root, id⟩).length ∧ Open t.1 ∧
        Staged (ms ++ (cs.flatten.filterMap fun id => E.get? ⟨root, id⟩).map .upsert) t.2)
      fun _ t => faulty ∧ Open t.1 ∧ ∃ ms, Staged ms t.2 := by
  induction cs generalizing done ms s with
  | nil => exact ends_pure ⟨rfl, hs.1, by simpa using hs.2⟩
  | cons chunk cs ih =>
      rw [Updater.refreshChunks]
      rw [List.flatten_cons] at hnd ⊢
      rw [List.append_assoc] at hnd
      refine (hP.getBatch root chunk s.1 hs.1).onFst.seq ?_ ?_
      · intro _ t h
        obtain ⟨⟨hf, ho⟩, ht⟩ := h
        exact ⟨hf, ho, ms, ht ▸ hs.2⟩
      intro loaded t h
      obtain ⟨⟨rfl, ho⟩, ht⟩ := h
      generalize hds : chunk.filterMap (fun id => E.get? ⟨root, id⟩) = ds
      have hkey (d : Document) (hd : d ∈ ds) : d.entityType = root ∧ d.id ∈ chunk := by
        rw [← hds] at hd
        obtain ⟨id, hid, hd⟩ := List.mem_filterMap.1 hd
        have hk := hE _ d hd
        have hdid : d.id = id := congrArg (·.id) hk
        exact ⟨congrArg (·.entityType) hk, hdid ▸ hid⟩
      have hsub : (ds.map (·.id)).Sublist chunk := by
        rw [← hds, map_id_loaded hE]
        exact List.filter_sublist
      have hw : wanted root chunk done ds = ds := by
        refine wanted_eq_self hkey (hnd.sublist ?_)
        exact hsub.append (List.sublist_append_right ..)
      have hrest : (cs.flatten ++ (ds.map (·.id) ++ done)).Nodup := by
        refine List.perm_append_comm_assoc .. |>.nodup_iff.2 (hnd.sublist ?_)
        exact hsub.append (List.Sublist.refl _)
      rw [hw]
      have hm : Staged ms t.2 := ht ▸ hs.2
      have hreplace := (replaceAll_ends hX ds hm).onSnd
      rw [← joint_replaceAll] at hreplace
      refine hreplace.seq ?_ ?_
      · intro _ t' h
        obtain ⟨⟨hf, hm⟩, ht'⟩ := h
        exact ⟨hf, ht' ▸ ho, hm⟩
      intro _ t' h
      obtain ⟨hm, ht'⟩ := h
      refine (ih _ hrest ⟨ht' ▸ ho, hm⟩).bind ?_
      intro n t'' h
      obtain ⟨rfl, ho', hm'⟩ := h
      refine ends_pure ⟨?_, ho', ?_⟩
      · rw [List.filterMap_append, hds, List.length_append]
      · rw [List.filterMap_append, hds, List.map_append, ← List.append_assoc]
        exact hm'

theorem refresh_ends (hP : u.provider.Serves E Idle Open faulty)
    (hX : u.index.Stages I At Staged faulty) (hE : E.Keyed) (hn : 0 < u.pageSize) (l : RootLookup)
    (id : EntityId) (o : BatchOutcome) {s : π × ι} (hs : Open s.1 ∧ Staged ms s.2) :
    Ends (u.joint.refresh l id o) s
      (fun o' t => o' = { o with
          updated := o.updated + (refreshed E I l id.term).length
          cascaded := o.cascaded + (refreshed E I l id.term).length } ∧
        Open t.1 ∧ Staged (ms ++ (refreshed E I l id.term).map .upsert) t.2)
      fun _ t => faulty ∧ Open t.1 ∧ ∃ ms, Staged ms t.2 := by
  rw [Updater.refresh]
  split
  next hf =>
    have hr : refreshed E I l id.term = [] := by
      rw [refreshed, found]
      rw [hf]
      rfl
    refine ends_pure ⟨?_, hs.1, ?_⟩
    · rw [hr]
      rfl
    · rw [hr]
      simpa using hs.2
  next =>
    rw [joint_containing]
    refine (containing_ends hX hn l id.term hs.2).onSnd.seq ?_ ?_
    · intro _ t h
      obtain ⟨⟨hf, hm⟩, ht⟩ := h
      exact ⟨hf, ht ▸ hs.1, ms, hm⟩
    intro ids t h
    obtain ⟨⟨rfl, hm⟩, ht⟩ := h
    have hc : (chunks u.pageSize (found I l id.term)).flatten = found I l id.term :=
      flatten_chunks hn _
    have hnd : ((chunks u.pageSize (found I l id.term)).flatten ++ []).Nodup := by
      rw [hc, List.append_nil]
      exact sortDistinct_nodup _
    refine (refreshChunks_ends hP hX hE l.rootType _ [] hnd ⟨ht ▸ hs.1, hm⟩).bind ?_
    intro n t' h
    obtain ⟨rfl, ho, hm'⟩ := h
    rw [hc] at hm' ⊢
    exact ends_pure ⟨rfl, ho, hm'⟩

theorem applyDirect_ends (hX : u.index.Stages I At Staged faulty) (k : EntityKey)
    (survivor : Option Document) (l : RootLookup) (hsv : l.direct → survivor = E.get? k)
    (o : BatchOutcome) {s : π × ι} (hs : Open s.1 ∧ Staged ms s.2) :
    Ends (u.joint.applyDirect k survivor l o) s
      (fun o' t => o' = { o with
          updated := o.updated + if l.direct ∧ (E.get? k).isSome then 1 else 0
          deleted := o.deleted + if l.direct ∧ E.get? k = none then 1 else 0 } ∧
        Open t.1 ∧ Staged (ms ++ directWrites E k l) t.2)
      fun _ t => faulty ∧ Open t.1 ∧ ∃ ms, Staged ms t.2 := by
  unfold applyDirect directWrites
  by_cases hl : l.direct
  · rw [if_pos hl, if_pos hl, ← hsv hl]
    cases survivor with
    | some d =>
        refine (hX.update d ms s.2 hs.2).onSnd.seq ?_ ?_
        · intro _ t h
          obtain ⟨⟨hf, hm⟩, ht⟩ := h
          exact ⟨hf, ht ▸ hs.1, ms, hm⟩
        intro _ t h
        obtain ⟨hm, ht⟩ := h
        exact ends_pure ⟨by simp [hl], ht ▸ hs.1, hm⟩
    | none =>
        refine (hX.delete k ms s.2 hs.2).onSnd.seq ?_ ?_
        · intro _ t h
          obtain ⟨⟨hf, hm⟩, ht⟩ := h
          exact ⟨hf, ht ▸ hs.1, ms, hm⟩
        intro _ t h
        obtain ⟨hm, ht⟩ := h
        exact ends_pure ⟨by simp [hl], ht ▸ hs.1, hm⟩
  · rw [if_neg hl, if_neg hl]
    exact ends_pure ⟨by simp [hl], hs.1, by simpa using hs.2⟩

theorem applyLookups_ends (hP : u.provider.Serves E Idle Open faulty)
    (hX : u.index.Stages I At Staged faulty) (hE : E.Keyed) (hn : 0 < u.pageSize) (k : EntityKey)
    (survivor : Option Document) (ls : List RootLookup)
    (hsv : ∀ l ∈ ls, l.direct → survivor = E.get? k) (o : BatchOutcome) {s : π × ι}
    (hs : Open s.1 ∧ Staged ms s.2) :
    Ends (u.joint.applyLookups k survivor ls o) s
      (fun o' t => o' = o.add (lookupsOutcome E I k ls) ∧
        Open t.1 ∧ Staged (ms ++ ls.flatMap (lookupWrites E I k)) t.2)
      fun _ t => faulty ∧ Open t.1 ∧ ∃ ms, Staged ms t.2 := by
  induction ls generalizing o ms s with
  | nil => exact ends_pure ⟨rfl, hs.1, by simpa using hs.2⟩
  | cons l ls ih =>
      rw [Updater.applyLookups]
      refine (applyDirect_ends hX k survivor l (hsv l (List.mem_cons_self ..)) o hs).bind ?_
      intro _ t hend
      obtain ⟨rfl, ho, hm⟩ := hend
      refine (refresh_ends hP hX hE hn l k.id _ ⟨ho, hm⟩).bind ?_
      intro _ t' hend
      obtain ⟨rfl, ho', hm'⟩ := hend
      refine (ih (fun x hx => hsv x (List.mem_cons_of_mem _ hx)) _ ⟨ho', hm'⟩).mono ?_ fun _ _ h => h
      intro _ t'' hend
      obtain ⟨rfl, ho'', hm''⟩ := hend
      refine ⟨?_, ho'', ?_⟩
      · simp only [lookupsOutcome, List.foldr_cons, lookupOutcome, BatchOutcome.add, Nat.zero_add,
          Nat.add_assoc]
      · rw [List.flatMap_cons, lookupWrites, ← List.append_assoc, ← List.append_assoc]
        exact hm''

theorem applyEvent_ends (hP : u.provider.Serves E Idle Open faulty)
    (hX : u.index.Stages I At Staged faulty) (hE : E.Keyed) (hn : 0 < u.pageSize) (o : BatchOutcome)
    (e : ChangeEvent) {s : π × ι} (hs : Open s.1 ∧ Staged ms s.2) :
    Ends (u.joint.applyEvent o e) s
      (fun o' t => o' = o.add (eventOutcome u.containment E I e) ∧
        Open t.1 ∧ Staged (ms ++ eventWrites u.containment E I e) t.2)
      fun _ t => faulty ∧ Open t.1 ∧ ∃ ms, Staged ms t.2 := by
  rw [Updater.applyEvent]
  simp only [show u.joint.containment = u.containment from rfl]
  by_cases hl : u.containment.rootsContaining e.entityType = []
  · have ha : ¬ Active u.containment E e := fun h => h.1 hl
    simp only [hl, if_true, eventOutcome, eventWrites, ha, if_false]
    exact ends_pure ⟨rfl, hs.1, by simpa using hs.2⟩
  have hlookups (sv : Option Document) (t : π × ι) (ha : Active u.containment E e)
      (hsv : ∀ l ∈ u.containment.rootsContaining e.entityType, l.direct → sv = E.get? e.key)
      (ht : Open t.1 ∧ Staged ms t.2) :
      Ends (u.joint.applyLookups e.key sv (u.containment.rootsContaining e.entityType) o) t
        (fun o' t => o' = o.add (eventOutcome u.containment E I e) ∧
          Open t.1 ∧ Staged (ms ++ eventWrites u.containment E I e) t.2)
        fun _ t => faulty ∧ Open t.1 ∧ ∃ ms, Staged ms t.2 := by
    simp only [eventOutcome, eventWrites, ha, if_true]
    exact applyLookups_ends hP hX hE hn e.key sv _ hsv o ht
  have hget := (hP.get e.key s.1 hs.1).onFst (s := s)
  have hfail (x : Failure) (t : π × ι) (h : (faulty ∧ Open t.1) ∧ t.2 = s.2) :
      faulty ∧ Open t.1 ∧ ∃ ms, Staged ms t.2 := ⟨h.1.1, h.1.2, ms, h.2 ▸ hs.2⟩
  rw [if_neg hl]
  by_cases hd : e.eventType = .delete
  · have ha : Active u.containment E e := ⟨hl, .inl hd⟩
    rw [hd]
    by_cases hany : (u.containment.rootsContaining e.entityType).any (·.direct)
    · simp only [hany, if_true]
      refine hget.seq hfail ?_
      intro sv t hend
      obtain ⟨⟨rfl, ho⟩, ht⟩ := hend
      exact hlookups _ t ha (fun _ _ _ => rfl) ⟨ho, ht ▸ hs.2⟩
    · simp only [hany]
      have hnone : ∀ l ∈ u.containment.rootsContaining e.entityType, l.direct → none = E.get? e.key :=
        fun l hm hdir => absurd (List.any_eq_true.2 ⟨l, hm, hdir⟩) hany
      exact hlookups none s ha hnone hs
  · cases he : e.eventType with
    | insert | update =>
        refine hget.seq hfail ?_
        intro sv t hend
        obtain ⟨⟨rfl, ho⟩, ht⟩ := hend
        cases hk : E.get? e.key with
        | none =>
            have ha : ¬ Active u.containment E e := by simp [Active, hd, hk]
            simp only [eventOutcome, eventWrites, ha, if_false]
            exact ends_pure ⟨rfl, ho, by simpa [ht] using hs.2⟩
        | some d =>
            have ha : Active u.containment E e := ⟨hl, .inr (by simp [hk])⟩
            exact hlookups (some d) t ha (fun _ _ _ => hk.symm) ⟨ho, ht ▸ hs.2⟩
    | delete => exact absurd he hd

theorem foldlM_applyEvent_ends (hP : u.provider.Serves E Idle Open faulty)
    (hX : u.index.Stages I At Staged faulty) (hE : E.Keyed) (hn : 0 < u.pageSize)
    (es : List ChangeEvent) (o : BatchOutcome) {s : π × ι} (hs : Open s.1 ∧ Staged ms s.2) :
    Ends (es.foldlM u.joint.applyEvent o) s
      (fun o' t => o' = o.add (outcome u.containment E I es) ∧
        Open t.1 ∧ Staged (ms ++ es.flatMap (eventWrites u.containment E I)) t.2)
      fun _ t => faulty ∧ Open t.1 ∧ ∃ ms, Staged ms t.2 := by
  induction es generalizing o ms s with
  | nil => exact ends_pure ⟨rfl, hs.1, by simpa using hs.2⟩
  | cons e es ih =>
      rw [List.foldlM_cons]
      refine (applyEvent_ends hP hX hE hn o e hs).bind ?_
      intro _ t hend
      obtain ⟨rfl, ho, hm⟩ := hend
      refine (ih _ ⟨ho, hm⟩).mono ?_ fun _ _ h => h
      intro _ t' hend
      obtain ⟨rfl, ho', hm'⟩ := hend
      refine ⟨BatchOutcome.add_assoc .., ho', ?_⟩
      rw [List.flatMap_cons, ← List.append_assoc]
      exact hm'

theorem transact_ends (hP : u.provider.Serves E Idle Open faulty)
    (hX : u.index.Stages I At Staged faulty) (hE : E.Keyed) (hn : 0 < u.pageSize)
    (es : List ChangeEvent) {s : π × ι} (hs : Open s.1 ∧ At I s.2) :
    Ends (u.joint.transact es) s
      (fun o t => o = outcome u.containment E I es ∧
        Open t.1 ∧ At (reindex u.containment E I es) t.2)
      fun _ t => faulty ∧ Open t.1 ∧ At I t.2 := by
  rw [Updater.transact]
  refine (hX.start s.2 hs.2).onSnd.seq ?_ ?_
  · intro _ t hend
    obtain ⟨⟨hf, ha⟩, ht⟩ := hend
    exact ⟨hf, ht ▸ hs.1, ha⟩
  intro _ t hend
  obtain ⟨hm, ht⟩ := hend
  refine (foldlM_applyEvent_ends hP hX hE hn es {} ⟨ht ▸ hs.1, hm⟩).attempt_bind ?_ ?_
  · intro o t' hend
    obtain ⟨rfl, ho, hm'⟩ := hend
    refine (hX.commit _ t'.2 hm').onSnd.seq ?_ ?_
    · intro _ t'' hend
      obtain ⟨⟨hf, ha⟩, ht''⟩ := hend
      exact ⟨hf, ht'' ▸ ho, ha⟩
    · intro _ t'' hend
      obtain ⟨ha, ht''⟩ := hend
      exact ends_pure ⟨BatchOutcome.zero_add _, ht'' ▸ ho, ha⟩
  · intro e t' hend
    obtain ⟨hf, ho, ms, hm'⟩ := hend
    have hroll : Ends (Act.onSnd u.index.rollback) t' (fun _ t => Open t.1 ∧ At I t.2)
        fun _ t => Open t.1 ∧ At I t.2 := by
      refine (hX.rollback ms t'.2 hm').onSnd.mono ?_ ?_
      · intro _ t'' hend
        obtain ⟨ha, ht''⟩ := hend
        exact ⟨ht'' ▸ ho, ha⟩
      · intro _ t'' hend
        obtain ⟨⟨-, ha⟩, ht''⟩ := hend
        exact ⟨ht'' ▸ ho, ha⟩
    exact hroll.ignore_bind fun t'' h => ends_throw ⟨hf, h⟩

/-- A batch reindexes all of it or nothing. -/
theorem run_ends (hP : u.provider.Serves E Idle Open faulty)
    (hX : u.index.Stages I At Staged faulty) (hE : E.Keyed) (hn : 0 < u.pageSize)
    (es : List ChangeEvent) {s : π × ι} (hs : Idle s.1 ∧ At I s.2) :
    Ends (u.run es) s
      (fun o t => o = outcome u.containment E I es ∧
        Idle t.1 ∧ At (reindex u.containment E I es) t.2)
      fun _ t => faulty ∧ Idle t.1 ∧ At I t.2 := by
  rw [run, batch]
  by_cases hes : es = []
  · subst hes
    exact ends_pure ⟨rfl, hs⟩
  rw [if_neg hes]
  refine (hP.start s.1 hs.1).onFst.seq ?_ ?_
  · intro _ t hend
    obtain ⟨⟨hf, hi⟩, ht⟩ := hend
    exact ⟨hf, hi, ht ▸ hs.2⟩
  intro _ t hend
  obtain ⟨ho, ht⟩ := hend
  have hclose {t' : π × ι} (ho' : Open t'.1) :
      Ends (Act.onFst u.provider.close) t' (fun _ t => Idle t.1 ∧ t.2 = t'.2)
        fun _ t => Idle t.1 ∧ t.2 = t'.2 :=
    ((hP.close t'.1 ho').mono (fun _ _ h => h) fun _ _ h => h.2).onFst
  refine (transact_ends hP hX hE hn es ⟨ho, ht ▸ hs.2⟩).attempt_bind ?_ ?_
  · intro o t' hend
    obtain ⟨rfl, ho', ha⟩ := hend
    refine (hclose ho').ignore_bind ?_
    intro t'' hend
    obtain ⟨hi, ht''⟩ := hend
    exact ends_pure ⟨rfl, hi, ht'' ▸ ha⟩
  · intro e t' hend
    obtain ⟨hf, ho', ha⟩ := hend
    refine (hclose ho').ignore_bind ?_
    intro t'' hend
    obtain ⟨hi, ht''⟩ := hend
    exact ends_throw ⟨hf, hi, ht'' ▸ ha⟩

theorem apply_ends (hP : u.provider.Serves E Idle Open faulty)
    (hX : u.index.Stages I At Staged faulty) (hE : E.Keyed) (hn : 0 < u.pageSize)
    (es : List ChangeEvent) {w : World π ι} (hw : Idle w.provider ∧ At I w.index) :
    Ends (u.apply es) w
      (fun o t => o = outcome u.containment E I es ∧
        Idle t.provider ∧ At (reindex u.containment E I es) t.index ∧ t.stats = w.stats.addOutcome o)
      fun _ t => faulty ∧ Idle t.provider ∧ At I t.index ∧ t.stats = w.stats.addFailure := by
  have h := run_ends hP hX hE hn es (s := (w.provider, w.index)) hw
  rw [Ends, Updater.apply]
  cases hr : u.run es (w.provider, w.index) with
  | ok o t =>
      obtain ⟨ho, hi, ha⟩ := h.of_ok hr
      exact ⟨ho, hi, ha, rfl⟩
  | error e t =>
      obtain ⟨hf, hi, ha⟩ := h.of_error hr
      exact ⟨hf, hi, ha, rfl⟩

end Updater

end ChangeFeed
