import ChangeFeed.Proofs.Index.Agreement

namespace ChangeFeed

open Act

def IdValue.compact : IdValue → String
  | integer n => ToString.toString n.toInt
  | text s => "\"" ++ String.ofList (s.toList.flatMap Json.escape) ++ "\""

def EntityId.compact (i : EntityId) : String := "[" ++ ",".intercalate (i.values.map IdValue.compact) ++ "]"

theorem IdValue.toList_compact (v : IdValue) : v.compact.toList = Json.render v.toData := by
  cases v with
  | text s => simp [compact, toData, Json.render, Json.quote]
  | integer n =>
      rw [compact, toData, Json.render]
      cases n.toInt <;> simp [Data.intText, ToString.toString, Int.repr, Nat.repr]

theorem EntityId.toList_compact (i : EntityId) : i.compact.toList = Json.render i.toData := by
  have hitems (v : IdValue) (vs : List IdValue) :
      (",".intercalate ((v :: vs).map IdValue.compact) ++ "]").toList =
        Json.render v.toData ++ Json.renderItems (vs.map IdValue.toData) := by
    induction vs generalizing v with
    | nil => simp [IdValue.toList_compact, Json.renderItems]
    | cons w vs ih =>
        have hrest := ih w
        rw [List.map_cons] at hrest
        rw [List.map_cons, List.map_cons, String.intercalate_cons_cons, List.map_cons, Json.renderItems]
        simp only [String.toList_append, List.append_assoc, IdValue.toList_compact] at hrest ⊢
        rw [hrest]
        rfl
  obtain ⟨vs⟩ := i
  rw [compact, toData]
  cases vs with
  | nil => rfl
  | cons v vs =>
      show _ = '[' :: Json.render v.toData ++ Json.renderItems (vs.map IdValue.toData)
      rw [List.cons_append, ← hitems, String.append_assoc, String.toList_append]
      rfl

theorem documentKey_eq (k : EntityKey) : documentKey k = k.entityType ++ "#" ++ k.id.compact := by
  apply String.toList_inj.1
  rw [toList_documentKey, String.toList_append, String.toList_append, EntityId.toList_compact,
    List.append_assoc]
  rfl

namespace IndexWrite

def key : IndexWrite → EntityKey
  | update d => d.key
  | delete key => key

/-- What a write does to documents, by their types and ids. -/
def effect (l : IndexLayout) (documents : List Document) : IndexWrite → List Document
  | update d => documents.filter (·.key ≠ d.key) ++ [l.toPlain d]
  | delete key => documents.filter (·.key ≠ key)

variable {l : IndexLayout}

theorem filter_effect_of_ne {w : IndexWrite} {key : EntityKey} (h : w.key ≠ key)
    (documents : List Document) :
    (w.effect l documents).filter (·.key = key) = documents.filter (·.key = key) := by
  have hkept (k : EntityKey) (hk : k ≠ key) :
      (documents.filter (·.key ≠ k)).filter (·.key = key) = documents.filter (·.key = key) := by
    rw [List.filter_filter]
    refine List.filter_congr fun d _ => ?_
    by_cases hd : d.key = key
    · simp [hd, Ne.symm hk]
    · simp [hd]
  cases w with
  | update d =>
      have hnew : [l.toPlain d].filter (·.key = key) = [] :=
        List.filter_eq_nil_iff.2 (List.forall_mem_singleton.2 fun he => h (of_decide_eq_true he))
      rw [effect, List.filter_append, hkept d.key h, hnew, List.append_nil]
  | delete k => exact hkept k h

end IndexWrite

namespace FullTextIndex

variable {l : IndexLayout}

theorem filter_keyOf (documents : List Document) (key : EntityKey) :
    documents.filter (keyOf · ≠ documentKey key) = documents.filter (·.key ≠ key) := by
  refine List.filter_congr fun d _ => decide_eq_decide.2 (not_congr ?_)
  exact ⟨documentKey_inj, congrArg documentKey⟩

theorem apply_staged (w : IndexWrite) (documents : List Document) :
    (w.staged l).foldl apply documents = w.effect l documents := by
  cases w with
  | update d =>
      show documents.filter (keyOf · ≠ documentKey d.key) ++ [l.toPlain d] = _
      rw [filter_keyOf]
      rfl
  | delete key => exact filter_keyOf documents key

theorem foldl_apply_staged (ws : List IndexWrite) (documents : List Document) :
    (ws.flatMap (·.staged l)).foldl apply documents =
      ws.foldl (fun ds w => w.effect l ds) documents := by
  induction ws generalizing documents with
  | nil => rfl
  | cons w ws ih => rw [List.flatMap_cons, List.foldl_append, apply_staged, List.foldl_cons, ih]

theorem filter_foldl_of_ne {ws : List IndexWrite} {key : EntityKey} (h : ∀ w ∈ ws, w.key ≠ key)
    (documents : List Document) :
    (ws.foldl (fun ds w => w.effect l ds) documents).filter (·.key = key) =
      documents.filter (·.key = key) := by
  induction ws generalizing documents with
  | nil => rfl
  | cons w ws ih =>
      obtain ⟨hw, hws⟩ := List.forall_mem_cons.1 h
      rw [List.foldl_cons, ih hws, IndexWrite.filter_effect_of_ne hw]

theorem document?_eq (ix : FullTextIndex) (key : EntityKey) :
    ix.document? key = ((ix.documents.filter (·.key = key)).head?).map ix.layout.ofPlain := by
  have hsame : (fun d => decide (keyOf d = documentKey key)) = fun d => decide (d.key = key) := by
    funext d
    exact decide_eq_decide.2 ⟨documentKey_inj, congrArg documentKey⟩
  rw [document?, hsame, List.head?_filter]

end FullTextIndex

/-- The text of a key is the type, a number sign and the id as compact JSON, and it determines both. So
over any transactions on any index, the committed writes act by type and id, and leave every document
alone that has another type or id. -/
theorem documents_apart :
    (∀ t t' i i', documentKey ⟨t, i⟩ = documentKey ⟨t', i'⟩ ↔ t = t' ∧ i = i') ∧
    (∀ t i, documentKey ⟨t, i⟩ = t ++ "#" ++ i.compact) ∧
    ∀ (ix : FullTextIndex) (history : List (List IndexWrite × Ending)) (unfinished : List IndexWrite),
      ∃ ix', FullTextIndex.engine.session history unfinished ix = .ok () ix' ∧
        ix'.documents = (committed history).foldl (fun ds w => w.effect ix.layout ds) ix.documents ∧
        ∀ key, (∀ w ∈ committed history, w.key ≠ key) →
          ix'.documents.filter (·.key = key) = ix.documents.filter (·.key = key) ∧
          ix'.document? key = ix.document? key := by
  refine ⟨fun t t' i i' => ⟨fun h => ?_, ?_⟩, fun t i => documentKey_eq ⟨t, i⟩, ?_⟩
  · exact EntityKey.mk.inj (documentKey_inj h)
  · rintro ⟨rfl, rfl⟩
    rfl
  intro ix history unfinished
  have hdocuments := FullTextIndex.foldl_apply_staged (committed history) ix.documents (l := ix.layout)
  refine ⟨_, FullTextIndex.session_eq history unfinished ix, hdocuments, fun key hkey => ?_⟩
  have hsame := FullTextIndex.filter_foldl_of_ne hkey ix.documents (l := ix.layout)
  rw [← hdocuments] at hsame
  refine ⟨hsame, ?_⟩
  rw [FullTextIndex.document?_eq, FullTextIndex.document?_eq, hsame]

end ChangeFeed

namespace ChangeFeed.Sample

def lookalike : FullTextIndex := ⟨placeLayout, [named "Place#[7]" (.text "7") "Castelobruxo"], []⟩

theorem apart_lookalikes :
    (∀ w ∈ committed lookalikes, w.key ≠ ⟨"Place#[7]", ⟨[.text "7"]⟩⟩) ∧
      ∃ ix', FullTextIndex.engine.session lookalikes [] lookalike = .ok () ix' ∧
        ix'.documents =
          (committed lookalikes).foldl (fun ds w => w.effect placeLayout ds) lookalike.documents ∧
        ix'.documents.filter (·.key = ⟨"Place#[7]", ⟨[.text "7"]⟩⟩) = lookalike.documents ∧
        ix'.document? ⟨"Place#[7]", ⟨[.text "7"]⟩⟩ =
          lookalike.document? ⟨"Place#[7]", ⟨[.text "7"]⟩⟩ := by
  have hothers : ∀ w ∈ committed lookalikes, w.key ≠ ⟨"Place#[7]", ⟨[.text "7"]⟩⟩ := by decide
  obtain ⟨ix', hsession, hdocuments, hkept⟩ := documents_apart.2.2 lookalike lookalikes []
  exact ⟨hothers, ix', hsession, hdocuments, hkept _ hothers⟩

end ChangeFeed.Sample
