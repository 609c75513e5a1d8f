import ChangeFeed.Proofs.Index.Key
import ChangeFeed.Proofs.Index.Layout
import ChangeFeed.Proofs.Reindex

namespace ChangeFeed

open Act Documents

inductive IndexWrite where
  | update (d : Document)
  | delete (key : EntityKey)

structure IndexReads where
  document? : EntityKey → Option Document
  size : Nat
  find : IndexQuery → Except Failure (List EntityId)

namespace IndexEngine

variable {ι : Type}

def write (X : IndexEngine ι) : IndexWrite → Act ι Unit
  | .update d => X.update d
  | .delete key => X.delete key

def finish (X : IndexEngine ι) : Ending → Act ι Unit
  | .commit => X.commit
  | .rollback => X.rollback
  | .drop => modify X.abandon

def transact (X : IndexEngine ι) (t : List IndexWrite × Ending) : Act ι Unit := do
  X.start
  t.1.forM X.write
  X.finish t.2

/-- Some transactions one after the other, and one that is still open. -/
def session (X : IndexEngine ι) (history : List (List IndexWrite × Ending))
    (unfinished : List IndexWrite) : Act ι Unit := do
  history.forM X.transact
  X.start
  unfinished.forM X.write

end IndexEngine

inductive Paged (find : IndexQuery → Except Failure (List EntityId)) (root field value : String)
    (size : Nat) : Nat → List EntityId → Prop
  | last {first : Nat} {page : List EntityId} (h : find ⟨root, field, value, first, size⟩ = .ok page)
      (hshort : page.length < size) : Paged find root field value size first page
  | more {first : Nat} {page rest : List EntityId}
      (h : find ⟨root, field, value, first, size⟩ = .ok page) (hfull : size ≤ page.length)
      (hrest : Paged find root field value size (first + size) rest) :
      Paged find root field value size first (page ++ rest)

theorem paged_of_hits {find : IndexQuery → Except Failure (List EntityId)} {root field value : String}
    {size : Nat} (hsize : 0 < size) {hits : List EntityId}
    (hfind : ∀ first, find ⟨root, field, value, first, size⟩ = .ok ((hits.drop first).take size))
    (first : Nat) : Paged find root field value size first (hits.drop first) := by
  generalize hn : (hits.drop first).length = n
  induction n using Nat.strongRecOn generalizing first with
  | ind n ih =>
      by_cases hshort : n < size
      · have htake : (hits.drop first).take size = hits.drop first :=
          List.take_of_length_le (by omega)
        refine .last ?_ (by omega)
        rw [hfind, htake]
      · have hlength : (hits.drop (first + size)).length = n - size := by
          rw [List.length_drop] at hn ⊢
          omega
        have hrest := ih (n - size) (by omega) (first + size) hlength
        rw [← List.take_append_drop size (hits.drop first), List.drop_drop]
        refine .more (hfind first) ?_ hrest
        rw [List.length_take]
        omega

namespace Documents

variable {D : Documents}

theorem Keyed.map_key_values (h : Keyed D) : D.values.map Document.key = D.keys := by
  rw [SortedMap.values, SortedMap.keys, List.map_map]
  exact List.map_congr_left fun e he => h e.1 e.2 (D.get?_eq_some.2 he)

theorem Keyed.mem_values (h : Keyed D) {d : Document} : d ∈ D.values ↔ D.get? d.key = some d := by
  rw [SortedMap.mem_values]
  constructor
  · rintro ⟨k, hk⟩
    rwa [h k d hk]
  · intro hd
    exact ⟨d.key, hd⟩

theorem values_insert_perm (D : Documents) (k : EntityKey) (d : Document) :
    (D.insert k d).values.Perm (d :: (D.erase k).values) :=
  (SortedMap.toList_insert_perm D k d).map Prod.snd

theorem Keyed.values_erase (h : Keyed D) (k : EntityKey) :
    (D.erase k).values = D.values.filter (·.key ≠ k) := by
  rw [SortedMap.values, SortedMap.values, List.filter_map]
  refine congrArg _ (List.filter_congr fun e he => ?_)
  have hkey : e.2.key = e.1 := h e.1 e.2 (D.get?_eq_some.2 he)
  by_cases hk : e.1 = k
  · subst hk
    simp [hkey]
  · have hne : compare k e.1 ≠ .eq := fun hc => hk (Std.LawfulEqOrd.eq_of_compare hc).symm
    simp [hkey, hk, hne]

end Documents

namespace FullTextIndex

variable {l : IndexLayout} {ix : FullTextIndex} {D : Documents}

/-- The committed documents are those of a map, under plain names and in some order. -/
structure Stores (ix : FullTextIndex) (D : Documents) : Prop where
  keyed : D.Keyed
  perm : ix.documents.Perm (D.values.map ix.layout.toPlain)

theorem Stores.keys_nodup (h : ix.Stores D) : (ix.documents.map keyOf).Nodup := by
  have hkeys : (D.values.map ix.layout.toPlain).map keyOf = D.keys.map documentKey := by
    rw [← h.keyed.map_key_values, List.map_map, List.map_map]
    rfl
  have hnd : (D.keys.map documentKey).Nodup :=
    List.pairwise_map.2 (D.keys_nodup.imp fun hne he => hne (documentKey_inj he))
  exact (h.perm.map keyOf).nodup_iff.2 (hkeys ▸ hnd)

theorem Stores.document?_eq (h : ix.Stores D) (hl : (ix.layout.declared.map IndexLayout.plainName).Nodup)
    (key : EntityKey) : ix.document? key = (D.get? key).map ix.layout.restrict := by
  rw [document?]
  cases hd : D.get? key with
  | some d =>
      have hmem : ix.layout.toPlain d ∈ ix.documents :=
        h.perm.mem_iff.2 (List.mem_map_of_mem (SortedMap.mem_values.2 ⟨key, hd⟩))
      have hfind := find?_of_mem h.keys_nodup hmem
      rw [show keyOf (ix.layout.toPlain d) = documentKey key by
        rw [keyOf, IndexLayout.key_toPlain, h.keyed key d hd]] at hfind
      rw [hfind, Option.map_some, Option.map_some, IndexLayout.ofPlain_toPlain hl]
  | none =>
      have hnone : ix.documents.find? (keyOf · = documentKey key) = none := by
        rw [List.find?_eq_none]
        intro e he
        obtain ⟨d, hmem, rfl⟩ := List.mem_map.1 (h.perm.mem_iff.1 he)
        rw [decide_eq_true_iff]
        intro hkey
        rw [← documentKey_inj hkey, IndexLayout.key_toPlain, h.keyed.mem_values.1 hmem] at hd
        cases hd
      rw [hnone]
      rfl

theorem Stores.size_eq (h : ix.Stores D) : ix.size = D.size := by
  rw [size, h.perm.length_eq, List.length_map, SortedMap.values, List.length_map, SortedMap.size]

theorem Stores.find_eq (h : ix.Stores D)
    (hl : (ix.layout.declared.map IndexLayout.plainName).Nodup) {field : String}
    (hf : field ∈ ix.layout.keyword) (root value : String) : ∃ ids : List EntityId,
    ids.Perm (((MemoryIndex.mk D []).hits root field value).map (·.id)) ∧
      ∀ first limit, ix.find ⟨root, field, value, first, limit⟩ = .ok ((ids.drop first).take limit) := by
  refine ⟨ix.select root fun d => d.holds (IndexLayout.plainName field) value, ?_, ?_⟩
  · have hperm := (h.perm.filter fun d =>
      d.entityType = root && d.holds (IndexLayout.plainName field) value).map (·.id)
    have hdeclared : field ∈ ix.layout.declared := List.mem_append_left _ hf
    rw [List.filter_map, List.map_map] at hperm
    have hsame : (fun d => decide (d.entityType = root) &&
        d.holds (IndexLayout.plainName field) value) ∘ ix.layout.toPlain =
        fun d => decide (d.entityType = root) && d.holds field value := by
      funext d
      rw [Function.comp_apply, IndexLayout.holds_toPlain hl hdeclared]
      rfl
    rw [hsame] at hperm
    exact hperm
  · intro first limit
    rw [find, if_neg (not_not_intro hf)]

theorem hits_nodup (h : D.Keyed) (root field value : String) :
    (((MemoryIndex.mk D []).hits root field value).map (·.id)).Nodup := by
  have hkeys : (((MemoryIndex.mk D []).hits root field value).map Document.key).Nodup := by
    have hall := D.keys_nodup
    rw [← h.map_key_values] at hall
    exact hall.sublist (List.filter_sublist.map _)
  have htype : ((MemoryIndex.mk D []).hits root field value).map Document.key =
      (((MemoryIndex.mk D []).hits root field value).map (·.id)).map (EntityKey.mk root) := by
    rw [List.map_map]
    refine List.map_congr_left fun d hd => ?_
    have hroot := (List.mem_filter.1 hd).2
    rw [Bool.and_eq_true, decide_eq_true_iff] at hroot
    rw [Function.comp_apply, ← hroot.1]
    rfl
  rw [htype] at hkeys
  exact List.Pairwise.of_map (EntityKey.mk root) (fun _ _ hne he => hne (congrArg _ he)) hkeys

end FullTextIndex

namespace IndexWrite

def mutation : IndexWrite → Mutation
  | update d => .upsert d
  | delete key => .delete key

def staged (l : IndexLayout) : IndexWrite → List FullText.Write
  | update d => [.delete (FullTextIndex.keyOf d), .add (l.toPlain d)]
  | delete key => [.delete (documentKey key)]

end IndexWrite

namespace FullTextIndex

variable {l : IndexLayout} {ix : FullTextIndex} {D : Documents}

theorem filter_keyOf_perm {ds : List Document} (hD : D.Keyed) (h : ds.Perm (D.values.map l.toPlain))
    (key : EntityKey) : (ds.filter (keyOf · ≠ documentKey key)).Perm
      ((D.erase key).values.map l.toPlain) := by
  have hfilter := h.filter (keyOf · ≠ documentKey key)
  have hsame : (fun d => decide (keyOf d ≠ documentKey key)) ∘ l.toPlain =
      fun d => decide (d.key ≠ key) := by
    funext d
    have hiff : keyOf (l.toPlain d) ≠ documentKey key ↔ d.key ≠ key :=
      not_congr ⟨documentKey_inj, congrArg documentKey⟩
    simp only [Function.comp_apply, hiff]
  rw [List.filter_map, hsame] at hfilter
  rwa [hD.values_erase]

theorem apply_staged_perm {ds : List Document} (hD : D.Keyed) (h : ds.Perm (D.values.map l.toPlain))
    (w : IndexWrite) : ((w.staged l).foldl apply ds).Perm
      ((MemoryIndex.apply D w.mutation).values.map l.toPlain) := by
  cases w with
  | delete key => exact filter_keyOf_perm hD h key
  | update d =>
      have herase := filter_keyOf_perm hD h d.key
      have hinsert := (values_insert_perm D d.key d).map l.toPlain
      refine List.Perm.trans ?_ hinsert.symm
      exact List.perm_append_comm.trans (herase.cons _)

theorem stores_writes (l : IndexLayout) (ws : List IndexWrite) (staged : List FullText.Write) :
    Stores ⟨l, (ws.flatMap (·.staged l)).foldl apply [], staged⟩
      ((ws.map IndexWrite.mutation).foldl MemoryIndex.apply ∅) := by
  suffices hall : ∀ (ds : List Document) (D : Documents), D.Keyed → ds.Perm (D.values.map l.toPlain) →
      Documents.Keyed ((ws.map IndexWrite.mutation).foldl MemoryIndex.apply D) ∧
      ((ws.flatMap (·.staged l)).foldl apply ds).Perm
        (((ws.map IndexWrite.mutation).foldl MemoryIndex.apply D).values.map l.toPlain) by
    obtain ⟨hkeyed, hperm⟩ := hall [] ∅ keyed_empty (.refl _)
    exact ⟨hkeyed, hperm⟩
  induction ws with
  | nil => exact fun ds D hD hds => ⟨hD, hds⟩
  | cons w ws ih =>
      intro ds D hD hds
      rw [List.flatMap_cons, List.foldl_append, List.map_cons, List.foldl_cons]
      exact ih _ _ (hD.apply w.mutation) (apply_staged_perm hD hds w)

end FullTextIndex

/-- The writes of the transactions that were committed. -/
def committed (history : List (List IndexWrite × Ending)) : List IndexWrite :=
  (history.filter (·.2 = .commit)).flatMap (·.1)

theorem committed_cons (t : List IndexWrite × Ending) (history : List (List IndexWrite × Ending)) :
    committed (t :: history) = committed [t] ++ committed history := by
  rw [committed, committed, committed, ← List.flatMap_append, ← List.filter_append,
    List.singleton_append]

theorem committed_filter (history : List (List IndexWrite × Ending)) :
    committed (history.filter (·.2 = .commit)) = committed history := by
  rw [committed, List.filter_filter, committed]
  simp

theorem forM_ok {σ α : Type} {f : α → Act σ Unit} {g : σ → α → σ}
    (h : ∀ a s, f a s = .ok () (g s a)) (l : List α) (s : σ) :
    l.forM f s = .ok () (l.foldl g s) := by
  induction l generalizing s with
  | nil => rfl
  | cons a l ih =>
      show (f a >>= fun _ => l.forM f) s = _
      rw [bind_apply, h]
      exact ih (g s a)

namespace MemoryIndex

theorem writes_eq (ws : List IndexWrite) (ix : MemoryIndex) : ws.forM engine.write ix =
    .ok () { ix with staged := ix.staged ++ ws.map IndexWrite.mutation } := by
  rw [forM_ok (g := fun ix w => ix.stage w.mutation) (by rintro (d | key) ix <;> rfl)]
  induction ws generalizing ix with
  | nil => simp
  | cons w ws ih =>
      rw [List.foldl_cons, ih]
      simp [stage]

theorem transact_eq (t : List IndexWrite × Ending) (ix : MemoryIndex) : engine.transact t ix =
    .ok () ⟨((committed [t]).map IndexWrite.mutation).foldl apply ix.documents, []⟩ := by
  obtain ⟨ws, ending⟩ := t
  rw [IndexEngine.transact, bind_apply]
  show ((ws.forM engine.write >>= fun _ => engine.finish ending : Act MemoryIndex Unit)) ix.discard = _
  rw [bind_apply, writes_eq]
  cases ending <;> simp [committed] <;> rfl

theorem history_eq (history : List (List IndexWrite × Ending)) (ix : MemoryIndex) : ∃ staged,
    history.forM engine.transact ix =
      .ok () ⟨((committed history).map IndexWrite.mutation).foldl apply ix.documents, staged⟩ := by
  induction history generalizing ix with
  | nil => exact ⟨ix.staged, rfl⟩
  | cons t history ih =>
      obtain ⟨staged, he⟩ := ih ⟨((committed [t]).map IndexWrite.mutation).foldl apply ix.documents, []⟩
      refine ⟨staged, ?_⟩
      show (engine.transact t >>= fun _ => history.forM engine.transact) ix = _
      rw [bind_apply, transact_eq, committed_cons t history, List.map_append, List.foldl_append]
      exact he

theorem session_eq (history : List (List IndexWrite × Ending)) (unfinished : List IndexWrite)
    (ix : MemoryIndex) : engine.session history unfinished ix =
      .ok () ⟨((committed history).map IndexWrite.mutation).foldl apply ix.documents,
        unfinished.map IndexWrite.mutation⟩ := by
  obtain ⟨staged, he⟩ := history_eq history ix
  rw [IndexEngine.session, bind_apply, he]
  exact writes_eq unfinished ⟨_, []⟩

end MemoryIndex

namespace FullTextIndex

theorem writes_eq (ws : List IndexWrite) (ix : FullTextIndex) : ws.forM engine.write ix =
    .ok () { ix with staged := ix.staged ++ ws.flatMap (·.staged ix.layout) } := by
  rw [forM_ok (g := fun ix w => ix.stage (w.staged ix.layout)) (by rintro (d | key) ix <;> rfl)]
  induction ws generalizing ix with
  | nil => simp
  | cons w ws ih =>
      rw [List.foldl_cons, ih]
      simp [stage]

theorem transact_eq (t : List IndexWrite × Ending) (ix : FullTextIndex) : engine.transact t ix =
    .ok () ⟨ix.layout, ((committed [t]).flatMap (·.staged ix.layout)).foldl apply ix.documents, []⟩ := by
  obtain ⟨ws, ending⟩ := t
  rw [IndexEngine.transact, bind_apply]
  show ((ws.forM engine.write >>= fun _ => engine.finish ending : Act FullTextIndex Unit)) ix.discard = _
  rw [bind_apply, writes_eq]
  cases ending <;> simp [committed] <;> rfl

theorem history_eq (history : List (List IndexWrite × Ending)) (ix : FullTextIndex) : ∃ staged,
    history.forM engine.transact ix = .ok ()
      ⟨ix.layout, ((committed history).flatMap (·.staged ix.layout)).foldl apply ix.documents, staged⟩ := by
  induction history generalizing ix with
  | nil => exact ⟨ix.staged, rfl⟩
  | cons t history ih =>
      obtain ⟨staged, he⟩ := ih
        ⟨ix.layout, ((committed [t]).flatMap (·.staged ix.layout)).foldl apply ix.documents, []⟩
      refine ⟨staged, ?_⟩
      show (engine.transact t >>= fun _ => history.forM engine.transact) ix = _
      rw [bind_apply, transact_eq, committed_cons t history, List.flatMap_append, List.foldl_append]
      exact he

theorem session_eq (history : List (List IndexWrite × Ending)) (unfinished : List IndexWrite)
    (ix : FullTextIndex) : engine.session history unfinished ix = .ok ()
      ⟨ix.layout, ((committed history).flatMap (·.staged ix.layout)).foldl apply ix.documents,
        unfinished.flatMap (·.staged ix.layout)⟩ := by
  obtain ⟨staged, he⟩ := history_eq history ix
  rw [IndexEngine.session, bind_apply, he]
  exact writes_eq unfinished ⟨_, _, []⟩

theorem create_ok {l : IndexLayout} {ix : FullTextIndex} (h : create l = .ok ix) :
    l.validate = .ok () ∧ ix = ⟨l, [], []⟩ := by
  rw [create] at h
  cases hv : l.validate with
  | error e =>
      rw [hv] at h
      cases h
  | ok u =>
      rw [hv] at h
      cases h
      exact ⟨rfl, rfl⟩

def reads (ix : FullTextIndex) : IndexReads := ⟨ix.document?, ix.size, ix.find⟩

end FullTextIndex

namespace MemoryIndex

def reads (ix : MemoryIndex) : IndexReads := ⟨ix.document?, ix.size, fun q => .ok (ix.find q)⟩

theorem paged (ix : MemoryIndex) {size : Nat} (hsize : 0 < size) (root field value : String) :
    Paged ix.reads.find root field value size 0 ((ix.hits root field value).map (·.id)) := by
  refine paged_of_hits hsize ?_ 0
  intro first
  show Except.ok (ix.find ⟨root, field, value, first, size⟩) = _
  rw [find, List.map_take, List.map_drop]

end MemoryIndex

/-- A full-text index shows what an index in memory shows: the same documents, restricted to the
layout, and under every keyword field the same ids, each once, with pages of any sizes. -/
structure IndexReads.Agree (l : IndexLayout) (full memory : IndexReads) : Prop where
  document? : ∀ key, full.document? key = (memory.document? key).map l.restrict
  size : full.size = memory.size
  find : ∀ root value, ∀ field ∈ l.keyword, ∀ n n', 0 < n → 0 < n' → ∃ ids ids',
    Paged full.find root field value n 0 ids ∧ Paged memory.find root field value n' 0 ids' ∧
      ids.Perm ids' ∧ ids.Nodup

theorem FullTextIndex.Stores.agree {ix : FullTextIndex} (memory : MemoryIndex)
    (h : ix.Stores memory.documents) (hl : (ix.layout.declared.map IndexLayout.plainName).Nodup) :
    IndexReads.Agree ix.layout ix.reads memory.reads where
  document? := h.document?_eq hl
  size := h.size_eq
  find root value field hf n n' hn hn' := by
    obtain ⟨ids, hperm, hfind⟩ := h.find_eq hl hf root value
    have hfull := paged_of_hits hn (fun first => hfind first n) 0
    refine ⟨ids, _, hfull, memory.paged hn' root field value, hperm, ?_⟩
    exact hperm.nodup_iff.2 (FullTextIndex.hits_nodup h.keyed root field value)

/-- Two indexes that began empty, with the same transactions behind them and one still open, show the
same. What they show is what they would show if only the transactions that were committed had been
made. -/
theorem indexes_agree {l : IndexLayout} {ix : FullTextIndex} (h : FullTextIndex.create l = .ok ix)
    (history : List (List IndexWrite × Ending)) (unfinished : List IndexWrite) :
    ∃ full memory full' memory',
      FullTextIndex.engine.session history unfinished ix = .ok () full ∧
      MemoryIndex.engine.session history unfinished {} = .ok () memory ∧
      IndexReads.Agree l full.reads memory.reads ∧
      FullTextIndex.engine.session (history.filter (·.2 = .commit)) [] ix = .ok () full' ∧
      MemoryIndex.engine.session (history.filter (·.2 = .commit)) [] {} = .ok () memory' ∧
      full.reads = full'.reads ∧ memory.reads = memory'.reads := by
  obtain ⟨hv, rfl⟩ := FullTextIndex.create_ok h
  have hstores := FullTextIndex.stores_writes l (committed history) (unfinished.flatMap (·.staged l))
  have hagree := FullTextIndex.Stores.agree ⟨_, unfinished.map IndexWrite.mutation⟩ hstores
    (IndexLayout.nodup_plainName hv)
  refine ⟨_, _, _, _, FullTextIndex.session_eq .., MemoryIndex.session_eq .., hagree,
    FullTextIndex.session_eq .., MemoryIndex.session_eq .., ?_, ?_⟩
  · rw [committed_filter]
    rfl
  · rw [committed_filter]
    rfl

end ChangeFeed

namespace ChangeFeed.Sample

def placeLayout : IndexLayout := ⟨["sorcerers.id"], ["name"]⟩

def named (entityType : String) (id : IdValue) (name : String) : Document :=
  ⟨entityType, ⟨[id]⟩, .ofList [("sorcerers.id", ["42"]), ("name", [name]), ("note", [])]⟩

def lookalikes : List (List IndexWrite × Ending) :=
  [([.update (named "Place" (.integer 7) "Hogwarts"), .update (named "Place" (.text "7") "Durmstrang"),
      .update (named "Place#[7]" (.integer 7) "Beauxbatons")], .commit),
    ([.delete ⟨"Place", ⟨[.integer 7]⟩⟩], .rollback),
    ([.update (named "Place" (.text "7") "Ilvermorny"), .delete ⟨"Place#[7]", ⟨[.integer 7]⟩⟩], .commit),
    ([.delete ⟨"Place", ⟨[.text "7"]⟩⟩], .drop)]

theorem agree_lookalikes :
    FullTextIndex.create placeLayout = .ok ⟨placeLayout, [], []⟩ ∧
      ∃ full memory full' memory',
        FullTextIndex.engine.session lookalikes [.delete ⟨"Place", ⟨[.integer 7]⟩⟩]
          ⟨placeLayout, [], []⟩ = .ok () full ∧
        MemoryIndex.engine.session lookalikes [.delete ⟨"Place", ⟨[.integer 7]⟩⟩] {} = .ok () memory ∧
        IndexReads.Agree placeLayout full.reads memory.reads ∧
        FullTextIndex.engine.session (lookalikes.filter (·.2 = .commit)) []
          ⟨placeLayout, [], []⟩ = .ok () full' ∧
        MemoryIndex.engine.session (lookalikes.filter (·.2 = .commit)) [] {} = .ok () memory' ∧
        full.reads = full'.reads ∧ memory.reads = memory'.reads := by
  have hcreate : FullTextIndex.create placeLayout = .ok ⟨placeLayout, [], []⟩ := rfl
  exact ⟨hcreate, indexes_agree hcreate lookalikes [.delete ⟨"Place", ⟨[.integer 7]⟩⟩]⟩

end ChangeFeed.Sample
