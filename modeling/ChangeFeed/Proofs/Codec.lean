import ChangeFeed.Config.Codec

namespace ChangeFeed

namespace Tree

theorem mapM_map {α β γ : Type} {f : α → β} {g : β → Option γ} {h : α → γ} {l : List α}
    (hl : ∀ a ∈ l, g (f a) = some (h a)) : (l.map f).mapM g = some (l.map h) := by
  induction l with
  | nil => rfl
  | cons a l ih =>
      rw [List.map_cons, List.mapM_cons, hl a (List.mem_cons_self ..),
        ih fun b hb => hl b (List.mem_cons_of_mem _ hb)]
      rfl

variable {ν : Type} {node : Data → ν}

def written (node : Data → ν) (ms : List (String × Data)) : List (Option String × ν) :=
  ms.map fun m => (some m.1, node m.2)

theorem field?_written {ms : List (String × Data)} (hnodup : (ms.map (·.1)).Nodup) {m : String × Data}
    (hm : m ∈ ms) : field? (written node ms) m.1 = some (some (node m.2)) := by
  have hfilter : (written node ms).filter (·.1 = some m.1) = [(some m.1, node m.2)] := by
    induction ms with
    | nil => cases hm
    | cons a ms ih =>
        rw [List.map_cons, List.nodup_cons] at hnodup
        rw [written, List.map_cons, ← written]
        rcases List.mem_cons.1 hm with rfl | hm
        · have hrest : (written node ms).filter (·.1 = some m.1) = [] := by
            rw [List.filter_eq_nil_iff]
            intro b hb he
            obtain ⟨c, hc, rfl⟩ := List.mem_map.1 hb
            exact hnodup.1 (List.mem_map.2 ⟨c, hc, by simpa using he⟩)
          rw [List.filter_cons_of_pos (by simp), hrest]
        · have hne : a.1 ≠ m.1 := fun he => hnodup.1 (he ▸ List.mem_map_of_mem hm)
          rw [List.filter_cons_of_neg (by simpa using hne), ih hnodup.2 hm]
  rw [field?, hfilter]

variable [Tree ν]

/-- A notation gives each value a node from which it is read back. -/
structure Faithful (node : Data → ν) : Prop where
  text : ∀ s, text? (node (.text s)) = some s
  choice : ∀ s, choice? (node (.text s)) = some s
  natural : ∀ n, natural? (node (.ofNat n)) = some n
  absent : optional? (node .null) = some none
  present : ∀ n, optional? (node (.ofNat n)) = some (some (node (.ofNat n)))
  items : ∀ ds, items? (node (.list ds)) = some (ds.map node)
  members : ∀ ms, members? (node (.record ms)) = some (written node ms)
  named : ∀ ms, row? (node (.record ms)) = none

namespace Faithful

variable (h : Faithful node)
include h

theorem fields {strict : Bool} {names : List String} {ms : List (String × Data)}
    (hnames : ms.map (·.1) = names) (hnodup : names.Nodup) :
    Tree.fields strict names (node (.record ms)) = some (ms.map fun m => some (node m.2)) := by
  subst hnames
  have hall : (written node ms).all (admits strict (ms.map (·.1))) = true := by
    rw [written, List.all_map, List.all_eq_true]
    intro m hm
    have hname : m.1 ∈ ms.map (·.1) := List.mem_map_of_mem hm
    simp [admits, hname]
  rw [Tree.fields, h.named, h.members]
  dsimp only [Option.bind_eq_bind, Option.bind_some]
  rw [if_pos hall]
  exact mapM_map fun m hm => field?_written hnodup hm

theorem list {α : Type} {read : ν → Option α} {write : α → Data} (hread : ∀ a, read (node (write a)) = some a)
    (l : List α) : list? read (node (.list (l.map write))) = some l := by
  rw [list?, h.items, List.map_map]
  exact (mapM_map fun a _ => hread a).trans (by rw [List.map_id'])

theorem texts (l : List String) : texts? (node (.ofTexts l)) = some l := h.list h.text l

theorem uint32 (n : UInt32) : uint32? (node (.ofNat n.toNat)) = some n := by
  rw [uint32?, h.natural]
  dsimp only [Option.bind_eq_bind, Option.bind_some]
  rw [if_pos n.toNat_lt, UInt32.ofNat_toNat]

theorem uint64 (n : UInt64) : uint64? (node (.ofNat n.toNat)) = some n := by
  rw [uint64?, h.natural]
  dsimp only [Option.bind_eq_bind, Option.bind_some]
  rw [if_pos n.toNat_lt, UInt64.ofNat_toNat]

theorem oneOf {α : Type} (all : List α) (name : α → String) (s : String) :
    oneOf? all name (node (.text s)) = all.find? fun a => name a = s := by
  rw [oneOf?, h.choice]
  rfl

end Faithful

end Tree

variable {ν : Type} [Tree ν] {node : Data → ν} (h : Tree.Faithful node)
include h

theorem EventType.ofTree?_toData (e : EventType) : ofTree? (node e.toData) = some e := by
  rw [ofTree?, toData, h.oneOf]
  cases e <;> rfl

theorem SourceState.ofTree?_toData (s : SourceState) : ofTree? (node s.toData) = some s := by
  rw [ofTree?, toData, h.oneOf]
  cases s <;> rfl

theorem InstallStrategy.ofTree?_toData (s : InstallStrategy) : ofTree? (node s.toData) = some s := by
  rw [ofTree?, toData, h.oneOf]
  cases s <;> rfl

theorem Dialect.ofTree?_toData (d : Dialect) : ofTree? (node d.toData) = some d := by
  rw [ofTree?, toData, h.oneOf]
  cases d <;> rfl

theorem ColumnType.ofTree?_toData (t : ColumnType) : ofTree? (node t.toData) = some t := by
  rw [ofTree?, toData, h.oneOf]
  cases t <;> rfl

theorem FailurePolicy.ofTree?_toData (p : FailurePolicy) : ofTree? (node p.toData) = some p := by
  rw [ofTree?, toData, h.oneOf]
  cases p <;> rfl

theorem TimeUnit.ofTree?_toData (u : TimeUnit) : ofTree? (node u.toData) = some u := by
  rw [ofTree?, toData, h.oneOf]
  cases u <;> rfl

theorem IdMapping.ofTree?_toData (m : IdMapping) : ofTree? (node m.toData) = some m := by
  rw [ofTree?, toData, h.fields]
  · simp [Tree.orElse, h.text, h.texts, ColumnType.ofTree?_toData h]
  · rfl
  · decide

theorem LogModel.ofTree?_toData (m : LogModel) : ofTree? (node m.toData) = some m := by
  rw [ofTree?, toData, h.fields]
  · simp [Tree.orElse, h.text, h.list (IdMapping.ofTree?_toData h)]
  · rfl
  · decide

theorem PollingConfig.ofTree?_toData (p : PollingConfig) : ofTree? (node p.toData) = some p := by
  rw [ofTree?, toData, h.fields]
  · simp [Tree.orElse, h.uint64, TimeUnit.ofTree?_toData h, FailurePolicy.ofTree?_toData h]
  · rfl
  · decide

theorem IndexConfig.ofTree?_toData (i : IndexConfig) : ofTree? (node i.toData) = some i := by
  rw [ofTree?, toData, h.fields]
  · simp [Tree.orElse, h.uint64, h.texts]
  · rfl
  · decide

theorem EmbedConfig.ofTree?_toData (e : EmbedConfig) : ofTree? (node e.toData) = some e := by
  rw [ofTree?, toData, h.fields]
  · simp [h.text, h.texts]
  · rfl
  · decide

theorem RootConfig.ofTree?_toData (r : RootConfig) : ofTree? (node r.toData) = some r := by
  rw [ofTree?, toData, h.fields]
  · simp [Tree.orElse, h.text, h.list (EmbedConfig.ofTree?_toData h)]
  · rfl
  · decide

theorem ConfigFile.versionOfTree?_versionData (v : Option UInt32) :
    versionOfTree? (node (versionData v)) = some v := by
  cases v with
  | none => simp [versionOfTree?, versionData, h.absent]
  | some n => simp [versionOfTree?, versionData, h.present, h.uint32]

theorem ConfigFile.ofTree?_toData (f : ConfigFile) : ofTree? (node f.toData) = some f := by
  rw [ofTree?, toData, h.fields]
  · simp [Tree.orElse, versionOfTree?_versionData h, PollingConfig.ofTree?_toData h,
      IndexConfig.ofTree?_toData h, h.list (LogModel.ofTree?_toData h), h.list (RootConfig.ofTree?_toData h)]
  · rfl
  · decide

end ChangeFeed
