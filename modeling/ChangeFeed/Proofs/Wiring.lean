import ChangeFeed.Config.Basic
import ChangeFeed.Proofs.Declared
import ChangeFeed.Proofs.Log.Tables
import ChangeFeed.Updater

namespace ChangeFeed

namespace Containment

variable {roots : List String} {es : List Embedding} {k : Containment} {r t f : String}

theorem reaches_build (h : build roots es = .ok k) :
    (∃ l ∈ k.rootsContaining t, l.rootType = r ∧ f ∈ l.idFields) ↔ ⟨r, t, f⟩ ∈ es := by
  obtain ⟨hes, rfl⟩ := build_eq_ok_iff.1 h
  have hroots : ∀ e ∈ es, e.root ∈ roots.eraseDups := fun e he => List.mem_eraseDups.2 (hes e he).1
  rw [rootsContaining, lookups_foldl_enterEmbedding (nodup_eraseDups _) hroots]
  have hfield : f ∈ (lookupOf es t r).idFields ↔ ⟨r, t, f⟩ ∈ es := by
    simp only [lookupOf, List.mem_eraseDups, List.mem_map, List.mem_filter, decide_eq_true_iff]
    constructor
    · rintro ⟨⟨r, t, f⟩, ⟨he, rfl, rfl⟩, rfl⟩
      exact he
    · exact fun he => ⟨_, ⟨he, rfl, rfl⟩, rfl⟩
  constructor
  · intro hend
    obtain ⟨l, hl, rfl, hf⟩ := hend
    obtain ⟨r, -, rfl⟩ := List.mem_map.1 hl
    exact hfield.1 hf
  · intro he
    have hr : r ∈ containers roots.eraseDups es t := by
      rw [mem_containers]
      by_cases hrt : r = t
      · exact .inl ⟨hrt, hrt ▸ hroots _ he⟩
      · exact .inr ⟨hrt, _, he, rfl, rfl⟩
    exact ⟨lookupOf es t r, List.mem_map_of_mem hr, rfl, hfield.2 he⟩

theorem mem_idFields_build (h : build roots es = .ok k) :
    f ∈ k.idFields ↔ ∃ r t, ⟨r, t, f⟩ ∈ es := by
  rw [mem_idFields]
  constructor
  · intro hend
    obtain ⟨t, l, hl, hf⟩ := hend
    exact ⟨l.rootType, t, (reaches_build h).1 ⟨l, hl, rfl, hf⟩⟩
  · intro hend
    obtain ⟨r, t, he⟩ := hend
    obtain ⟨l, hl, -, hf⟩ := (reaches_build h).2 he
    exact ⟨t, l, hl, hf⟩

end Containment

namespace SyncConfig

variable {c : SyncConfig} {r t f : String}

/-- The configuration embeds entities of a type in documents of a root, with their ids in a field. -/
def Nests (c : SyncConfig) (root entityType field : String) : Prop :=
  ∃ r ∈ c.roots, r.entityType = root ∧ ∃ e ∈ r.embeds, e.entityType = entityType ∧ field ∈ e.idFields

/-- What a configuration has to be, part by part. -/
structure Sound (c : SyncConfig) : Prop where
  interval : 1 ≤ c.polling.interval.toNat
  batchSize : 1 ≤ c.polling.batchSize.toNat ∧ c.polling.batchSize.toNat ≤ 100000
  windowSize : 1 ≤ c.polling.windowSize.toNat ∧ c.polling.windowSize.toNat ≤ 100000
  pageSize : 1 ≤ c.index.pageSize.toNat ∧ c.index.pageSize.toNat ≤ 10000
  tables : c.logTables ≠ []
  models : ∀ m ∈ c.logTables, m.validate = .ok ()
  distinct : (c.logTables.map (·.logTable)).Nodup
  fields : ∀ r ∈ c.roots, ∀ e ∈ r.embeds, "" ∉ e.idFields

theorem checkSize_eq_ok_iff {field : String} {value limit : UInt64} :
    checkSize field value limit = .ok () ↔ 1 ≤ value.toNat ∧ value.toNat ≤ limit.toNat := by
  rw [checkSize]
  by_cases h : 1 ≤ value ∧ value ≤ limit
  · rw [if_pos h]
    exact iff_of_true rfl h
  · rw [if_neg h]
    exact iff_of_false nofun h

theorem checkTables_eq_ok_iff {seen : List String} {models : List LogModel} :
    checkTables seen models = .ok () ↔
      (∀ m ∈ models, m.validate = .ok ()) ∧ Apart seen (models.map (·.logTable)) := by
  induction models generalizing seen with
  | nil => exact iff_of_true rfl ⟨nofun, apart_nil⟩
  | cons m models ih =>
      have hcons : checkTables seen (m :: models) = .ok () ↔ m.validate = .ok () ∧
          m.logTable ∉ seen ∧ checkTables (m.logTable :: seen) models = .ok () := by
        rw [checkTables]
        cases hv : m.validate with
        | error e => exact iff_of_false nofun fun h => nomatch h.1
        | ok => by_cases hm : m.logTable ∈ seen <;> simp [hm]
      rw [hcons, ih, List.forall_mem_cons, List.map_cons, apart_cons, and_assoc]
      exact and_congr_right fun _ => and_left_comm

theorem mem_embeddings : ⟨r, t, f⟩ ∈ c.embeddings ↔ c.Nests r t f := by
  simp only [embeddings, Nests, List.mem_flatMap, List.mem_map, Embedding.mk.injEq]
  grind

theorem containment_ok_iff :
    (∃ k, c.containment = .ok k) ↔ ∀ r ∈ c.roots, ∀ e ∈ r.embeds, "" ∉ e.idFields := by
  simp only [containment, Containment.build_eq_ok_iff]
  constructor
  · rintro ⟨k, hes, -⟩ r hr e he hf
    exact (hes ⟨r.entityType, e.entityType, ""⟩ (mem_embeddings.2 ⟨r, hr, rfl, e, he, rfl, hf⟩)).2 rfl
  · refine fun h => ⟨_, fun ⟨r, t, f⟩ hmem => ?_, rfl⟩
    obtain ⟨r, hr, rfl, e, he, rfl, hf⟩ := mem_embeddings.1 hmem
    refine ⟨List.mem_map_of_mem hr, ?_⟩
    rintro rfl
    exact h r hr e he hf

theorem validate_eq_ok_iff : c.validate = .ok () ↔ c.Sound := by
  have hinterval : ¬ c.polling.interval = 0 ↔ 1 ≤ c.polling.interval.toNat := by
    rw [← UInt64.toNat_inj, UInt64.toNat_zero]
    omega
  unfold validate
  simp only [refuse_bind_eq_ok, check_bind_eq_ok, checkSize_eq_ok_iff, checkTables_eq_ok_iff]
  rw [hinterval, apart_of_nil]
  have hfields := containment_ok_iff (c := c)
  cases hk : c.containment with
  | error e =>
      rw [hk] at hfields
      refine iff_of_false (fun h => ?_) (fun h => ?_)
      · cases h.2.2.2.2.2.2
      · obtain ⟨k, ⟨⟩⟩ := hfields.2 h.fields
  | ok k =>
      constructor
      · rintro ⟨hinterval, hbatch, hwindow, hpage, htables, ⟨hmodels, hdistinct⟩, -⟩
        exact ⟨hinterval, hbatch, hwindow, hpage, htables, hmodels, hdistinct, hfields.1 ⟨k, hk⟩⟩
      · intro h
        exact ⟨h.interval, h.batchSize, h.windowSize, h.pageSize, h.tables, ⟨h.models, h.distinct⟩, rfl⟩

/-- What a configuration comes to. The containment says which root, type and field it nests in one
another, and nothing else of how it is written. -/
structure Wires (c : SyncConfig) (k : Containment) : Prop where
  models : c.models = .ok c.logTables
  poller : ∀ {κ : Type} (consumers : List (Consumer κ)),
    Poller.make c.logTables consumers c.pollerConfig = .ok ⟨c.logTables, consumers, c.pollerConfig⟩
  updater : ∀ {π ι : Type} (provider : EntityProvider π) (index : IndexEngine ι),
    Updater.make k provider index c.index.pageSize.toNat =
      .ok ⟨k, provider, index, c.index.pageSize.toNat⟩
  interval : 0 < c.pollInterval.seconds ∨ 0 < c.pollInterval.nanoseconds
  layout : ∃ l, c.layout = .ok l ∧ l.keyword.Nodup ∧ l.text.Nodup ∧
    (∀ f, f ∈ l.keyword ↔ ∃ r t, c.Nests r t f) ∧ ∀ f, f ∈ l.text ↔ f ∈ c.index.textFields
  roots : ∀ r, k.isRoot r = true ↔ ∃ root ∈ c.roots, root.entityType = r
  lookups : ∀ r t f,
    (∃ l ∈ k.rootsContaining t, l.rootType = r ∧ f ∈ l.idFields) ↔ c.Nests r t f

theorem Sound.interval_pos (h : c.Sound) : 0 < c.pollInterval.seconds ∨ 0 < c.pollInterval.nanoseconds := by
  have hpos := h.interval
  rw [pollInterval]
  cases c.polling.unit with
  | milliseconds =>
      simp only [Span.ofUnits]
      omega
  | seconds =>
      simp only [Span.ofUnits]
      omega
  | minutes =>
      simp only [Span.ofUnits, Span.maxSeconds, UInt64.size]
      omega

theorem Sound.wires (h : c.Sound) {k : Containment} (hk : c.containment = .ok k) : c.Wires k where
  models := by
    have hvalid : c.logTables.forM LogModel.validate = .ok () := forM_eq_ok_iff.2 h.models
    rw [SyncConfig.models, hvalid]
    rfl
  poller consumers := by
    have hconfig : ¬ (c.pollerConfig.batchSize = 0 ∨ c.pollerConfig.windowSize = 0) := by
      have hbatch := h.batchSize.1
      have hwindow := h.windowSize.1
      simp only [pollerConfig]
      omega
    have hmodels : LogModel.validateAll c.logTables = .ok () :=
      LogModel.validateAll_go_eq_ok_iff.2 ⟨h.models, apart_of_nil.2 h.distinct⟩
    rw [Poller.make, if_neg hconfig, hmodels]
  updater provider index := by
    have hpage := h.pageSize.1
    rw [Updater.make, if_neg (by omega)]
  interval := h.interval_pos
  layout := by
    refine ⟨_, by rw [layout, hk]; rfl, sortDistinct_nodup _, sortDistinct_nodup _, fun f => ?_, fun f => ?_⟩
    · show f ∈ sortDistinct (k.idFields ++ []) ↔ _
      rw [mem_sortDistinct, List.append_nil, Containment.mem_idFields_build hk]
      simp only [mem_embeddings]
    · exact mem_sortDistinct
  roots r := by
    obtain ⟨-, rfl⟩ := Containment.build_eq_ok_iff.1 hk
    simp [Containment.isRoot]
  lookups r t f := (Containment.reaches_build hk).trans mem_embeddings

/-- Validation accepts the sound configurations and no others, and whatever is made of one of these is
made without a failure. -/
theorem validate_wires (c : SyncConfig) : (c.validate = .ok () ↔ c.Sound) ∧
    (c.validate = .ok () → ∃ k, c.containment = .ok k ∧ c.Wires k) := by
  refine ⟨validate_eq_ok_iff, fun hvalid => ?_⟩
  have h := validate_eq_ok_iff.1 hvalid
  obtain ⟨k, hk⟩ := containment_ok_iff.2 h.fields
  exact ⟨k, hk, h.wires hk⟩

end SyncConfig
end ChangeFeed

namespace ChangeFeed.Sample

def splitConfig : SyncConfig where
  polling := { interval := 1, unit := .minutes, batchSize := 100000, windowSize := 1 }
  index := { pageSize := 10000, textFields := ["title", "title"] }
  logTables := [{
    logTable := "author_log"
    watchedTable := "author"
    ids := [{ entityType := "author", logColumns := ["author_id"], watchedColumns := ["id"] }] }]
  roots := [
    { entityType := "book", embeds := [
      { entityType := "author", idFields := ["author_id", "editor_id"] },
      { entityType := "publisher", idFields := [] }] },
    { entityType := "author" },
    { entityType := "book", embeds := [
      { entityType := "author", idFields := ["editor_id", "translator_id"] }] }]

theorem splitConfig_wires : splitConfig.validate = .ok () ∧
    ∃ k, splitConfig.containment = .ok k ∧ splitConfig.Wires k := by
  have hvalid : splitConfig.validate = .ok () := by rfl
  exact ⟨hvalid, (SyncConfig.validate_wires splitConfig).2 hvalid⟩

end ChangeFeed.Sample
