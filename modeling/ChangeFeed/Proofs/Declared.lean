import ChangeFeed.Proofs.Checks
import ChangeFeed.Proofs.Containment
import ChangeFeed.Proofs.Lists

namespace ChangeFeed.Containment

def Declaration.root? : Declaration → Option String
  | .root r => some r
  | .embeds _ => none

def Declaration.embedding? : Declaration → Option Embedding
  | .root _ => none
  | .embeds e => some e

def declaredRoots (ds : List Declaration) : List String := ds.filterMap (·.root?)

def declaredEmbeddings (ds : List Declaration) : List Embedding := ds.filterMap (·.embedding?)

def embedders (es : List Embedding) (t : String) : List String :=
  ((es.filter fun e => e.entityType = t ∧ e.root ≠ t).map (·.root)).eraseDups

/-- How the documents of a root are found from an entity type, by the embeddings alone. -/
def lookupOf (es : List Embedding) (t root : String) : RootLookup where
  rootType := root
  direct := root = t
  idFields := ((es.filter fun e => e.entityType = t ∧ e.root = root).map (·.field)).eraseDups

variable {roots rs : List String} {es : List Embedding} {e : Embedding} {t r : String}
  {ds : List Declaration} {c : Containment}

theorem mem_declaredRoots : r ∈ declaredRoots ds ↔ .root r ∈ ds := by
  rw [declaredRoots, List.mem_filterMap]
  constructor
  · rintro ⟨d, hd, he⟩
    cases d with
    | root r' =>
        cases he
        exact hd
    | embeds e => cases he
  · exact fun h => ⟨_, h, rfl⟩

theorem mem_declaredEmbeddings : e ∈ declaredEmbeddings ds ↔ .embeds e ∈ ds := by
  rw [declaredEmbeddings, List.mem_filterMap]
  constructor
  · rintro ⟨d, hd, he⟩
    cases d with
    | root r => cases he
    | embeds e' =>
        cases he
        exact hd
  · exact fun h => ⟨_, h, rfl⟩

theorem addRoot_eraseDups (l : List String) (a : String) :
    addRoot l.eraseDups a = (l ++ [a]).eraseDups := by
  rw [eraseDups_concat, addRoot]
  simp

theorem foldl_addRoot_eq (l : List String) : l.foldl addRoot [] = l.eraseDups := by
  induction l using List.reverseRecOn with
  | nil => rfl
  | append_singleton l a ih =>
      rw [List.foldl_append, ih, ← addRoot_eraseDups]
      rfl

theorem foldl_declare (b : Builder) (ds : List Declaration) : ds.foldl Builder.declare b =
    ⟨(declaredRoots ds).foldl addRoot b.roots, b.embeddings ++ declaredEmbeddings ds⟩ := by
  induction ds generalizing b with
  | nil => simp [declaredRoots, declaredEmbeddings]
  | cons d ds ih =>
      rw [List.foldl_cons, ih]
      cases d with
      | root r => rfl
      | embeds e =>
          rw [Builder.declare, List.append_assoc]
          rfl

theorem ofDeclarations_eq (ds : List Declaration) :
    ofDeclarations ds = build (declaredRoots ds) (declaredEmbeddings ds) := by
  rw [ofDeclarations, foldl_declare]
  rfl

theorem check_eq_ok_iff {e : Embedding} : check roots e = .ok () ↔ e.root ∈ roots ∧ e.field ≠ "" := by
  rw [check]
  by_cases hr : e.root ∈ roots <;> by_cases hf : e.field = "" <;> simp [hr, hf]

theorem forM_check_eq_ok_iff :
    es.forM (check roots) = .ok () ↔ ∀ e ∈ es, e.root ∈ roots ∧ e.field ≠ "" := by
  simp only [forM_eq_ok_iff, check_eq_ok_iff]

theorem build_eq_ok_iff : build roots es = .ok c ↔
    (∀ e ∈ es, e.root ∈ roots ∧ e.field ≠ "") ∧
      c = ⟨es.foldl enterEmbedding (roots.eraseDups.foldl enterRoot ∅), roots.eraseDups⟩ := by
  rw [build, foldl_addRoot_eq, bind_eq_ok]
  constructor
  · rintro ⟨u, hcheck, hc⟩
    cases hc
    exact ⟨fun e he => by simpa using forM_check_eq_ok_iff.1 hcheck e he, rfl⟩
  · rintro ⟨hvalid, rfl⟩
    exact ⟨(), forM_check_eq_ok_iff.2 fun e he => by simpa using hvalid e he, rfl⟩

theorem mem_embedders : r ∈ embedders es t ↔ r ≠ t ∧ ∃ e ∈ es, e.entityType = t ∧ e.root = r := by
  simp only [embedders, List.mem_eraseDups, List.mem_map, List.mem_filter, decide_eq_true_iff]
  constructor
  · rintro ⟨e, ⟨he, ht, hne⟩, rfl⟩
    exact ⟨hne, e, he, ht, rfl⟩
  · rintro ⟨hne, e, he, ht, rfl⟩
    exact ⟨e, ⟨he, ht, hne⟩, rfl⟩

theorem lookupOf_concat_of_ne (h : ¬ (e.entityType = t ∧ e.root = r)) :
    lookupOf (es ++ [e]) t r = lookupOf es t r := by
  rw [lookupOf, List.filter_append, List.filter_cons_of_neg (by simpa using h), List.filter_nil,
    List.append_nil]
  rfl

theorem lookupOf_concat (h : e.entityType = t ∧ e.root = r) : lookupOf (es ++ [e]) t r =
    { lookupOf es t r with idFields := addRoot (lookupOf es t r).idFields e.field } := by
  rw [lookupOf, List.filter_append, List.filter_cons_of_pos (by simpa using h), List.filter_nil,
    List.map_append, List.map_singleton, ← addRoot_eraseDups]
  rfl

theorem addField_map (hrs : rs.Nodup)
    (hnew : e.root ∉ rs → e.root ≠ e.entityType ∧ lookupOf es e.entityType e.root =
      ⟨e.root, false, []⟩) :
    addField e.root e.field (rs.map (lookupOf es e.entityType)) =
      (addRoot rs e.root).map (lookupOf (es ++ [e]) e.entityType) := by
  induction rs with
  | nil =>
      obtain ⟨-, hempty⟩ := hnew List.not_mem_nil
      have hone : addRoot [] e.root = [e.root] := rfl
      rw [hone, List.map_singleton, lookupOf_concat ⟨rfl, rfl⟩, hempty]
      rfl
  | cons r rs ih =>
      obtain ⟨hr, hrs⟩ := List.nodup_cons.1 hrs
      rw [List.map_cons, addField, show (lookupOf es e.entityType r).rootType = r from rfl]
      by_cases he : r = e.root
      · subst he
        have hrest : rs.map (lookupOf (es ++ [e]) e.entityType) = rs.map (lookupOf es e.entityType) :=
          List.map_congr_left fun r' hr' => lookupOf_concat_of_ne fun h => hr (h.2 ▸ hr')
        rw [if_pos rfl, addRoot, if_pos (List.mem_cons_self ..), List.map_cons, hrest,
          lookupOf_concat ⟨rfl, rfl⟩, addRoot]
        split <;> rfl
      · rw [if_neg he, ih hrs fun hmem => hnew (List.not_mem_cons_of_ne_of_not_mem (Ne.symm he) hmem)]
        have hsame : lookupOf (es ++ [e]) e.entityType r = lookupOf es e.entityType r :=
          lookupOf_concat_of_ne fun h => he h.2.symm
        rw [← hsame, addRoot, addRoot]
        by_cases hmem : e.root ∈ rs
        · rw [if_pos hmem, if_pos (List.mem_cons_of_mem _ hmem), List.map_cons]
        · rw [if_neg hmem, if_neg (List.not_mem_cons_of_ne_of_not_mem (Ne.symm he) hmem),
            List.cons_append, List.map_cons]

/-- The roots that a type has a lookup for: itself if it is a root, then the others. -/
def containers (roots : List String) (es : List Embedding) (t : String) : List String :=
  (if t ∈ roots then [t] else []) ++ embedders es t

theorem mem_containers : r ∈ containers roots es t ↔
    (r = t ∧ t ∈ roots) ∨ r ≠ t ∧ ∃ e ∈ es, e.entityType = t ∧ e.root = r := by
  rw [containers, List.mem_append, mem_embedders]
  split
  next h => simp [h]
  next h => simp [h]

theorem nodup_containers (roots : List String) (es : List Embedding) (t : String) :
    (containers roots es t).Nodup := by
  rw [containers]
  split
  next =>
    refine List.nodup_cons.2 ⟨fun h => (mem_embedders.1 h).1 rfl, nodup_eraseDups _⟩
  next => exact nodup_eraseDups _

theorem containers_concat (hroot : e.root ∈ roots) :
    containers roots (es ++ [e]) e.entityType = addRoot (containers roots es e.entityType) e.root := by
  by_cases he : e.root = e.entityType
  · have hsame : embedders (es ++ [e]) e.entityType = embedders es e.entityType := by
      rw [embedders, List.filter_append, List.filter_cons_of_neg (by simp [he]), List.filter_nil,
        List.append_nil]
      rfl
    rw [containers, hsame, addRoot, if_pos (mem_containers.2 (.inl ⟨he, he ▸ hroot⟩)), containers]
  · have hadded : embedders (es ++ [e]) e.entityType =
        addRoot (embedders es e.entityType) e.root := by
      rw [embedders, List.filter_append, List.filter_cons_of_pos (by simp [he]), List.filter_nil,
        List.map_append, List.map_singleton, ← addRoot_eraseDups]
      rfl
    have hown : e.root ∉ if e.entityType ∈ roots then [e.entityType] else [] := by
      split <;> simp [he]
    rw [containers, hadded, containers]
    generalize (if e.entityType ∈ roots then [e.entityType] else []) = own at hown ⊢
    rw [addRoot, addRoot]
    by_cases hmem : e.root ∈ embedders es e.entityType
    · rw [if_pos hmem, if_pos (List.mem_append_right _ hmem)]
    · rw [if_neg hmem, if_neg (by simp [hown, hmem]), List.append_assoc]

theorem lookups_foldl_enterEmbedding (hroots : roots.Nodup) (hes : ∀ e ∈ es, e.root ∈ roots) (t : String) :
    lookups (es.foldl enterEmbedding (roots.foldl enterRoot ∅)) t =
      (containers roots es t).map (lookupOf es t) := by
  induction es using List.reverseRecOn generalizing t with
  | nil =>
      rw [List.foldl_nil, lookups_entered hroots, containers]
      have hnone : lookups ∅ t = [] := rfl
      rw [hnone, List.nil_append, show embedders [] t = [] from rfl, List.append_nil]
      split
      next => simp [lookupOf]
      next => rfl
  | append_singleton es e ih =>
      have hroot : e.root ∈ roots := hes e (by simp)
      have ih := ih fun e' he' => hes e' (by simp [he'])
      rw [List.foldl_append, List.foldl_cons, List.foldl_nil, enterEmbedding, lookups_insert, ih, ih]
      split
      next ht =>
        subst ht
        rw [containers_concat hroot]
        refine addField_map (nodup_containers ..) fun hnew => ?_
        have hne : e.root ≠ e.entityType := fun he => hnew (mem_containers.2 (.inl ⟨he, he ▸ hroot⟩))
        refine ⟨hne, ?_⟩
        have hnone : es.filter (fun e' => e'.entityType = e.entityType ∧ e'.root = e.root) = [] := by
          refine List.filter_eq_nil_iff.2 fun e' he' h => ?_
          exact hnew (mem_containers.2 (.inr ⟨hne, e', he', by simpa using h⟩))
        rw [lookupOf, hnone, decide_eq_false hne]
        rfl
      next ht =>
        have hsame : containers roots (es ++ [e]) t = containers roots es t := by
          rw [containers, embedders, List.filter_append,
            List.filter_cons_of_neg (by simp [Ne.symm ht]), List.filter_nil, List.append_nil]
          rfl
        rw [hsame]
        exact List.map_congr_left fun r _ => (lookupOf_concat_of_ne fun h => ht h.1.symm).symm

/-- What a containment holds of the declarations that it was built from. -/
structure Represents (ds : List Declaration) (c : Containment) : Prop where
  rootTypes : c.rootTypes = (declaredRoots ds).eraseDups
  isRoot : ∀ t, c.isRoot t = true ↔ .root t ∈ ds
  lookups : ∀ t, c.rootsContaining t = ((if .root t ∈ ds then [t] else []) ++
    embedders (declaredEmbeddings ds) t).map (lookupOf (declaredEmbeddings ds) t)
  distinct : ∀ t, ((c.rootsContaining t).map (·.rootType)).Nodup
  declared : ∀ t, ∀ l ∈ c.rootsContaining t, .root l.rootType ∈ ds
  direct : ∀ t, ∀ l ∈ c.rootsContaining t, l.direct = true ↔ l.rootType = t
  own : ∀ t, .root t ∈ ds → ∃ l, (c.rootsContaining t).head? = some l ∧ l.direct = true
  others : ∀ t r, r ≠ t →
    ((∃ l ∈ c.rootsContaining t, l.rootType = r) ↔ ∃ f, .embeds ⟨r, t, f⟩ ∈ ds)
  idFields : ∀ f, f ∈ c.idFields ↔ ∃ r t, .embeds ⟨r, t, f⟩ ∈ ds
  once : c.idFields.Nodup

theorem mem_idFields {f : String} : f ∈ c.idFields ↔ ∃ t, ∃ l ∈ c.rootsContaining t, f ∈ l.idFields := by
  simp only [Containment.idFields, mem_sortDistinct, List.mem_flatMap, SortedMap.mem_values,
    rootsContaining, Containment.lookups]
  constructor
  · rintro ⟨ls, ⟨t, hls⟩, l, hl, hf⟩
    exact ⟨t, l, by rw [hls]; exact hl, hf⟩
  · rintro ⟨t, l, hl, hf⟩
    cases hls : c.entries.get? t with
    | none =>
        rw [hls] at hl
        cases hl
    | some ls =>
        rw [hls] at hl
        exact ⟨ls, ⟨t, hls⟩, l, hl, hf⟩

theorem Represents.of_lookups (hvalid : ∀ e, .embeds e ∈ ds → .root e.root ∈ ds)
    (hroots : c.rootTypes = (declaredRoots ds).eraseDups)
    (hlookups : ∀ t, c.rootsContaining t = (containers (declaredRoots ds) (declaredEmbeddings ds) t).map
      (lookupOf (declaredEmbeddings ds) t)) : Represents ds c := by
  have hmem (t r : String) : (∃ l ∈ c.rootsContaining t, l.rootType = r) ↔
      r ∈ containers (declaredRoots ds) (declaredEmbeddings ds) t := by
    simp [hlookups, lookupOf]
  have hroot {t r : String} (hr : r ∈ containers (declaredRoots ds) (declaredEmbeddings ds) t) :
      .root r ∈ ds := by
    rcases mem_containers.1 hr with ⟨rfl, ht⟩ | ⟨-, e, he, -, rfl⟩
    · exact mem_declaredRoots.1 ht
    · exact hvalid e (mem_declaredEmbeddings.1 he)
  have hfield (t : String) (l : RootLookup) (hl : l ∈ c.rootsContaining t) :
      l = lookupOf (declaredEmbeddings ds) t l.rootType := by
    rw [hlookups] at hl
    obtain ⟨r, -, rfl⟩ := List.mem_map.1 hl
    rfl
  constructor
  case rootTypes => exact hroots
  case isRoot =>
    intro t
    rw [Containment.isRoot, decide_eq_true_iff, hroots, List.mem_eraseDups, mem_declaredRoots]
  case lookups =>
    intro t
    rw [hlookups, containers]
    simp only [mem_declaredRoots]
  case distinct =>
    intro t
    rw [hlookups, List.map_map]
    exact (List.map_id _).symm ▸ nodup_containers ..
  case declared => exact fun t l hl => hroot ((hmem t l.rootType).1 ⟨l, hl, rfl⟩)
  case direct =>
    intro t l hl
    rw [hfield t l hl]
    exact decide_eq_true_iff
  case own =>
    intro t ht
    rw [hlookups, containers, if_pos (mem_declaredRoots.2 ht)]
    exact ⟨_, rfl, decide_eq_true rfl⟩
  case others =>
    intro t r hne
    rw [hmem, mem_containers]
    constructor
    · rintro (⟨rfl, -⟩ | ⟨-, ⟨r', t', f⟩, he, rfl, rfl⟩)
      · exact absurd rfl hne
      · exact ⟨f, mem_declaredEmbeddings.1 he⟩
    · rintro ⟨f, he⟩
      exact .inr ⟨hne, _, mem_declaredEmbeddings.2 he, rfl, rfl⟩
  case idFields =>
    intro f
    rw [mem_idFields]
    constructor
    · rintro ⟨t, l, hl, hf⟩
      rw [hfield t l hl, lookupOf, List.mem_eraseDups, List.mem_map] at hf
      obtain ⟨⟨r', t', f'⟩, he, rfl⟩ := hf
      exact ⟨r', t', mem_declaredEmbeddings.1 (List.mem_of_mem_filter he)⟩
    · rintro ⟨r, t, he⟩
      have hr : r ∈ containers (declaredRoots ds) (declaredEmbeddings ds) t := by
        rw [mem_containers]
        by_cases hne : r = t
        · exact .inl ⟨hne, hne ▸ mem_declaredRoots.2 (hvalid _ he)⟩
        · exact .inr ⟨hne, _, mem_declaredEmbeddings.2 he, rfl, rfl⟩
      refine ⟨t, lookupOf (declaredEmbeddings ds) t r, hlookups t ▸ List.mem_map_of_mem hr, ?_⟩
      rw [lookupOf, List.mem_eraseDups, List.mem_map]
      exact ⟨_, List.mem_filter.2 ⟨mem_declaredEmbeddings.2 he, by simp⟩, rfl⟩
  case once => exact sortDistinct_nodup _

/-- A sequence of declarations can be built if and only if each embedding names a declared root and a
field, and then the index represents it. Nothing else of the sequence matters than the order of the roots
and that of the embeddings. -/
theorem ofDeclarations_represents (ds : List Declaration) :
    ((∃ c, ofDeclarations ds = .ok c) ↔ ∀ r t f, .embeds ⟨r, t, f⟩ ∈ ds → .root r ∈ ds ∧ f ≠ "") ∧
      (∀ c, ofDeclarations ds = .ok c → Represents ds c) ∧
      ∀ ds', declaredRoots ds' = declaredRoots ds → declaredEmbeddings ds' = declaredEmbeddings ds →
        ofDeclarations ds' = ofDeclarations ds := by
  have hvalid : (∀ e ∈ declaredEmbeddings ds, e.root ∈ declaredRoots ds ∧ e.field ≠ "") ↔
      ∀ r t f, .embeds ⟨r, t, f⟩ ∈ ds → .root r ∈ ds ∧ f ≠ "" := by
    simp only [mem_declaredEmbeddings, mem_declaredRoots]
    exact ⟨fun h r t f he => h _ he, fun h e he => h e.root e.entityType e.field he⟩
  refine ⟨?_, ?_, ?_⟩
  · rw [ofDeclarations_eq, ← hvalid]
    constructor
    · rintro ⟨c, hc⟩
      exact (build_eq_ok_iff.1 hc).1
    · exact fun h => ⟨_, build_eq_ok_iff.2 ⟨h, rfl⟩⟩
  · intro c hc
    rw [ofDeclarations_eq] at hc
    obtain ⟨hes, rfl⟩ := build_eq_ok_iff.1 hc
    refine .of_lookups (fun e he => ((hvalid.1 hes) _ _ _ he).1) rfl fun t => ?_
    have hroots : ∀ e ∈ declaredEmbeddings ds, e.root ∈ (declaredRoots ds).eraseDups :=
      fun e he => List.mem_eraseDups.2 (hes e he).1
    rw [rootsContaining, lookups_foldl_enterEmbedding (nodup_eraseDups _) hroots]
    simp only [containers, List.mem_eraseDups]
  · intro ds' hroots hes
    rw [ofDeclarations_eq, ofDeclarations_eq, hroots, hes]

end ChangeFeed.Containment

namespace ChangeFeed.Sample

open Containment

example :
    (ofDeclarations [.embeds ⟨"Place", "Place", "parent.id"⟩, .root "Place",
        .embeds ⟨"Place", "Book", "books.id"⟩, .root "Book"]).map
      (fun c => (c.rootsContaining "Place", c.rootsContaining "Book")) =
    .ok ([⟨"Place", true, ["parent.id"]⟩], [⟨"Book", true, []⟩, ⟨"Place", false, ["books.id"]⟩]) := rfl

end ChangeFeed.Sample
