import ChangeFeed.Proofs.Alike
import ChangeFeed.Proofs.Index.Schema
import ChangeFeed.Proofs.Log.Kept
import ChangeFeed.Proofs.MemoryWorld

namespace ChangeFeed

open Act

variable {σ τ π ι α : Type}

theorem Act.recovers_keeps (forget : τ → σ) (inv : τ → Prop) :
    Act.Recovers forget fun a' _ => Keeps inv a' where
  pure := keeps_pure
  bind h hf := h.bind hf
  get_bind h t ht := h t t ht
  throw := keeps_throw
  attempt h := h.attempt
  ignore h := h.ignore

def Updater.withIndex (u : Updater π ι) (X : IndexEngine τ) : Updater π τ :=
  ⟨u.containment, u.provider, X, u.pageSize⟩

structure Search where
  query : IndexQuery
  answer : Except Failure (List EntityId)

namespace IndexEngine

def findNoting (X : IndexEngine ι) (q : IndexQuery) : Act (ι × List Search) (List EntityId) := fun t =>
  match X.find q t.1 with
  | .ok ids s => .ok ids (s, t.2 ++ [⟨q, .ok ids⟩])
  | .error e s => .error e (s, t.2 ++ [⟨q, .error e⟩])

/-- The engine on a state with the searches made so far. -/
def noting (X : IndexEngine ι) : IndexEngine (ι × List Search) where
  start := Act.onFst X.start
  find := X.findNoting
  add d := Act.onFst (X.add d)
  update d := Act.onFst (X.update d)
  delete key := Act.onFst (X.delete key)
  commit := Act.onFst X.commit
  rollback := Act.onFst X.rollback
  abandon t := (X.abandon t.1, t.2)
  bound t := X.bound t.1

/-- What all calls of an engine keep, and what is known of its searches of the given fields. -/
structure Answers (X : IndexEngine ι) (inv : ι → Prop) (fields : List String) (good : Search → Prop) :
    Prop where
  start : Keeps inv X.start
  find : ∀ q, q.field ∈ fields → Keeps inv (X.find q)
  good : ∀ q, q.field ∈ fields → ∀ s, inv s → good ⟨q, ((X.find q).outcome s).1⟩
  update : ∀ d, Keeps inv (X.update d)
  delete : ∀ key, Keeps inv (X.delete key)
  commit : Keeps inv X.commit
  rollback : Keeps inv X.rollback

variable {X : IndexEngine ι} {inv : ι → Prop} {fields : List String} {good : Search → Prop}

def Noted (inv : ι → Prop) (good : Search → Prop) (t : ι × List Search) : Prop :=
  inv t.1 ∧ ∀ x ∈ t.2, good x

theorem erases_findNoting (X : IndexEngine ι) (q : IndexQuery) :
    Erases Prod.fst (X.findNoting q) (X.find q) := by
  intro t
  rw [outcome, outcome, findNoting]
  cases X.find q t.1 <;> rfl

theorem keeps_noted {a : Act ι α} (h : Keeps inv a) : Keeps (Noted inv good) (Act.onFst a) := by
  refine fun t ht => (h t.1 ht.1).onFst.mono (fun _ _ hend => ⟨hend.1, ?_⟩) fun _ _ hend => ⟨hend.1, ?_⟩
  · exact hend.2 ▸ ht.2
  · exact hend.2 ▸ ht.2

theorem Answers.keeps_findNoting (h : X.Answers inv fields good) {q : IndexQuery} (hq : q.field ∈ fields) :
    Keeps (Noted inv good) (X.findNoting q) := by
  intro t ht
  have hkeeps := h.find q hq t.1 ht.1
  have hgood := h.good q hq t.1 ht.1
  rw [outcome] at hgood
  rw [Ends] at hkeeps
  rw [Ends, findNoting]
  cases hf : X.find q t.1 with
  | ok ids s =>
      rw [hf] at hkeeps hgood
      exact ⟨hkeeps, List.forall_mem_append.2 ⟨ht.2, List.forall_mem_singleton.2 hgood⟩⟩
  | error e s =>
      rw [hf] at hkeeps hgood
      exact ⟨hkeeps, List.forall_mem_append.2 ⟨ht.2, List.forall_mem_singleton.2 hgood⟩⟩

theorem answers_any (X : IndexEngine ι) (fields : List String) :
    X.Answers (fun _ => True) fields fun x => x.query.field ∈ fields where
  start s _ := ends_any _ s
  find _ _ s _ := ends_any _ s
  good _ hq _ _ := hq
  update _ s _ := ends_any _ s
  delete _ s _ := ends_any _ s
  commit s _ := ends_any _ s
  rollback s _ := ends_any _ s

end IndexEngine

theorem FullTextIndex.answers_engine (l : IndexLayout) :
    engine.Answers (·.layout = l) l.keyword fun x => ∃ ids, x.answer = .ok ids where
  start := keeps_modify fun _ h => h
  find _ _ := keeps_get.bind fun _ => keeps_ofExcept _
  good q hq ix h := by
    have hfind : ∃ ids, ix.find q = .ok ids := ⟨_, by rw [find, if_neg (not_not_intro (h ▸ hq))]⟩
    obtain ⟨ids, hids⟩ := hfind
    refine ⟨ids, ?_⟩
    show ((Act.ofExcept (ix.find q)).outcome ix).1 = _
    rw [hids]
    rfl
  update _ := keeps_modify fun _ h => h
  delete _ := keeps_modify fun _ h => h
  commit := keeps_modify fun _ h => h
  rollback := keeps_modify fun _ h => h

namespace Updater

variable {inv : ι → Prop} {good : Search → Prop} {fields : List String} (u : Updater π ι)

/-- The searches that are made for a batch. -/
def searches (events : List ChangeEvent) (s : π × ι) : List Search :=
  (((u.withIndex u.index.noting).run events).outcome (s.1, s.2, [])).2.2.2

theorem noting_alike : (u.withIndex u.index.noting).joint.AlikeThroughout u.joint
    (fun t => (t.1, t.2.1)) fun a' a => Erases (fun t => (t.1, t.2.1)) a' a where
  containment := rfl
  pageSize := rfl
  get _ := erases_onFst _ _
  getBatch _ _ := erases_onFst _ _
  find q _ := (u.index.erases_findNoting q).onSnd
  update _ := (erases_fst _).onSnd
  delete _ := (erases_fst _).onSnd
  bound _ := rfl
  openSession := erases_onFst _ _
  closeSession := erases_onFst _ _
  start := (erases_fst _).onSnd
  commit := (erases_fst _).onSnd
  rollback := (erases_fst _).onSnd

/-- Noting the searches does not change what becomes of a batch. -/
theorem outcome_noting (events : List ChangeEvent) (s : π × ι) :
    (u.run events).outcome s =
      ((((u.withIndex u.index.noting).run events).outcome (s.1, s.2, [])).1,
        (((u.withIndex u.index.noting).run events).outcome (s.1, s.2, [])).2.1,
        (((u.withIndex u.index.noting).run events).outcome (s.1, s.2, [])).2.2.1) :=
  u.noting_alike.batch (recovers_erases _) events (s.1, s.2, [])

variable {u} (h : u.index.Answers inv fields good) (hfields : ∀ f ∈ u.containment.idFields, f ∈ fields)
include h hfields

theorem noting_keeps : (u.withIndex u.index.noting).joint.AlikeThroughout u.joint
    (fun t => (t.1, t.2.1)) fun a' _ => Keeps (fun t => IndexEngine.Noted inv good t.2) a' where
  containment := rfl
  pageSize := rfl
  get _ := keeps_onFst _
  getBatch _ _ := keeps_onFst _
  find _ hq := (h.keeps_findNoting (hfields _ hq)).onSnd
  update d := (IndexEngine.keeps_noted (h.update d)).onSnd
  delete key := (IndexEngine.keeps_noted (h.delete key)).onSnd
  bound _ := rfl
  openSession := keeps_onFst _
  closeSession := keeps_onFst _
  start := (IndexEngine.keeps_noted h.start).onSnd
  commit := (IndexEngine.keeps_noted h.commit).onSnd
  rollback := (IndexEngine.keeps_noted h.rollback).onSnd

theorem good_searches (events : List ChangeEvent) {s : π × ι} (hs : inv s.2) :
    ∀ x ∈ u.searches events s, good x :=
  (((noting_keeps h hfields).batch (recovers_keeps _ _) events).outcome
    (s := (s.1, s.2, [])) ⟨hs, List.forall_mem_nil _⟩).2

end Updater

namespace IndexLayout

structure Checked (l : IndexLayout) : Prop where
  validate : l.validate = .ok () ↔ l.Sound
  create : (∃ ix, FullTextIndex.create l = .ok ix) ↔ l.Sound
  reopen : ∀ ix, (∃ e, FullTextIndex.reopen ix l = .error (.layout e)) ↔ ¬ l.Sound
  nodup : l.Sound → l.fieldNames.Nodup
  reserved : l.Sound → ∀ name ∈ l.declared, plainName name ∉ [typeField, idField, keyField]
  schema : l.Sound → l.fieldNames.foldlM addField [] = some l.fieldNames

theorem checked (keyword text : List String) : (ofFields keyword text).Checked := by
  have hvalidate := validate_eq_ok_iff keyword text
  have hok := hvalidate.2
  refine ⟨hvalidate, ?_, fun ix => ?_, fun h => nodup_fieldNames (hok h), fun h name hn => ?_, fun h => ?_⟩
  · rw [← hvalidate, FullTextIndex.create]
    cases (ofFields keyword text).validate with
    | error e => exact iff_of_false nofun nofun
    | ok => exact iff_of_true ⟨_, rfl⟩ rfl
  · rw [← hvalidate, FullTextIndex.reopen]
    cases (ofFields keyword text).validate with
    | error e => exact iff_of_true ⟨e, rfl⟩ nofun
    | ok =>
        refine iff_of_false ?_ (not_not_intro rfl)
        rintro ⟨e, he⟩
        by_cases hs : (ofFields keyword text).schema = ix.layout.schema
        · simp [hs] at he
        · simp [hs] at he
  · exact ((check_eq_ok_iff.1 (hok h)).1 name hn).1.plainName_not_mem
  · exact foldlM_addField (nodup_fieldNames (hok h))

theorem mem_keyword_forContainment {c : Containment} {keyword text : List String} :
    ∀ f ∈ c.idFields, f ∈ (forContainment c keyword text).keyword := fun _ hf =>
  mem_sortDistinct.2 (List.mem_append_left _ hf)

/-- A layout is accepted if its fields can be told apart. One that is made for a containment has all
fields that an updater searches, whatever happens and whichever index it is: the full-text index of that
layout answers every search. -/
theorem checked_and_searched : (∀ keyword text, (ofFields keyword text).Checked) ∧
    (∀ {π ι : Type} (u : Updater π ι) keyword text events s, ∀ x ∈ u.searches events s,
      x.query.field ∈ (forContainment u.containment keyword text).keyword) ∧
    ∀ {π : Type} (c : Containment) (provider : EntityProvider π) pageSize keyword text events
      (s : π × FullTextIndex), s.2.layout = forContainment c keyword text →
        ∀ x ∈ (Updater.mk c provider FullTextIndex.engine pageSize).searches events s,
          ∃ ids, x.answer = .ok ids := by
  refine ⟨checked, fun u keyword text events s => ?_, fun c provider n keyword text events s hs => ?_⟩
  · exact Updater.good_searches (u.index.answers_any _) mem_keyword_forContainment events trivial
  · exact Updater.good_searches (FullTextIndex.answers_engine _) mem_keyword_forContainment events hs

end IndexLayout

end ChangeFeed

namespace ChangeFeed.Sample

def searchedLayout : IndexLayout := .forContainment containment ["code"] ["name", "born in"]

theorem searches_sorcererGone :
    FullTextIndex.create searchedLayout = .ok ⟨searchedLayout, [], []⟩ ∧
      ((⟨containment, MemoryProvider.provider, FullTextIndex.engine, 100⟩ :
        Updater MemoryProvider FullTextIndex).searches [sorcererGone]
          ({ documents := entities }, ⟨searchedLayout, [], []⟩)).map (·.query.field) =
        ["sorcerers.id"] ∧
      ∀ x ∈ (⟨containment, MemoryProvider.provider, FullTextIndex.engine, 100⟩ :
        Updater MemoryProvider FullTextIndex).searches [sorcererGone]
          ({ documents := entities }, ⟨searchedLayout, [], []⟩), ∃ ids, x.answer = .ok ids := by
  refine ⟨rfl, by decide +kernel, ?_⟩
  exact IndexLayout.checked_and_searched.2.2 containment MemoryProvider.provider 100 ["code"]
    ["name", "born in"] [sorcererGone] ({ documents := entities }, ⟨searchedLayout, [], []⟩) rfl

end ChangeFeed.Sample
