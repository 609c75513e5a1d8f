import ChangeFeed.Index.FullText
import ChangeFeed.Proofs.Checks
import ChangeFeed.Proofs.Lists
import ChangeFeed.Proofs.SortedMap

namespace ChangeFeed.IndexLayout

variable {l : IndexLayout} {d : Document} {name : String}

def StartsPlain (name : String) : Prop := ∃ c cs, name.toList = c :: cs ∧ c.isAlphanum = true

theorem toList_plainName (name : String) : (plainName name).toList =
    name.toList.map fun c => if c.isAlphanum then c else '_' := String.toList_ofList

theorem startsReserved_iff : startsReserved name = false ↔ StartsPlain name := by
  rw [startsReserved, toList_plainName, StartsPlain]
  cases name.toList with
  | nil => exact iff_of_false nofun nofun
  | cons c cs =>
      rw [List.map_cons]
      by_cases hc : c.isAlphanum = true
      · simp only [if_pos hc]
        refine iff_of_true (beq_eq_false_iff_ne.2 ?_) ⟨c, cs, rfl, hc⟩
        rintro rfl
        exact absurd hc (by decide)
      · simp only [if_neg hc]
        refine iff_of_false (by decide) ?_
        rintro ⟨_, _, ⟨⟩, h⟩
        exact hc h

theorem find?_plainName_eq_none_iff {earlier : List String} :
    (earlier.find? fun e => plainName e = plainName name) = none ↔
      plainName name ∉ earlier.map plainName := by
  rw [List.find?_eq_none, List.mem_map]
  simp

theorem check_eq_ok_iff {earlier names : List String} : l.check earlier names = .ok () ↔
    (∀ name ∈ names, StartsPlain name ∧ (name ∈ l.keyword → name ∉ l.text)) ∧
      Apart (earlier.map plainName) (names.map plainName) := by
  induction names generalizing earlier with
  | nil => exact iff_of_true rfl ⟨nofun, apart_nil⟩
  | cons name names ih =>
      have hcons : l.check earlier (name :: names) = .ok () ↔ StartsPlain name ∧
          (name ∈ l.keyword → name ∉ l.text) ∧ plainName name ∉ earlier.map plainName ∧
            l.check (name :: earlier) names = .ok () := by
        rw [check, ← startsReserved_iff, ← find?_plainName_eq_none_iff]
        cases startsReserved name with
        | true => simp
        | false =>
            by_cases hk : name ∈ l.keyword ∧ name ∈ l.text
            · simp [hk]
            · rw [if_neg (by decide), if_neg hk]
              cases earlier.find? fun e => plainName e = plainName name with
              | none => simpa using fun _ => not_and.1 hk
              | some e => simp
      rw [hcons, ih, List.forall_mem_cons, List.map_cons, List.map_cons, apart_cons]
      grind

theorem nodup_plainName (h : l.validate = .ok ()) : (l.declared.map plainName).Nodup :=
  (check_eq_ok_iff.1 h).2.1

/-- The fields that are declared and hold a value. -/
def restrict (l : IndexLayout) (d : Document) : Document :=
  { d with fields := d.fields.filter fun name values => name ∈ l.declared && values ≠ [] }

@[simp] theorem key_toPlain (l : IndexLayout) (d : Document) : (l.toPlain d).key = d.key := rfl

@[simp] theorem entityType_toPlain (l : IndexLayout) (d : Document) :
    (l.toPlain d).entityType = d.entityType := rfl

@[simp] theorem id_toPlain (l : IndexLayout) (d : Document) : (l.toPlain d).id = d.id := rfl

theorem values_toPlain (h : (l.declared.map plainName).Nodup) (hn : name ∈ l.declared) :
    (l.toPlain d).values (plainName name) = d.values name := by
  have hkeys : (((l.declared.filter fun name => d.values name ≠ []).map fun name =>
      (plainName name, d.values name)).map (·.1)).Nodup := by
    rw [List.map_map]
    exact h.sublist (List.filter_sublist.map _)
  have hget (v : List String) : (l.toPlain d).fields.get? (plainName name) = some v ↔
      d.values name = v ∧ v ≠ [] := by
    rw [toPlain, SortedMap.get?_ofList_eq_some hkeys]
    simp only [List.mem_map, List.mem_filter, decide_eq_true_iff, Prod.mk.injEq]
    constructor
    · rintro ⟨name', ⟨hn', hv⟩, hp, rfl⟩
      obtain rfl : name' = name := eq_of_key h hn' hn hp
      exact ⟨rfl, hv⟩
    · rintro ⟨rfl, hv⟩
      exact ⟨name, ⟨hn, hv⟩, rfl, rfl⟩
  rw [Document.values]
  cases hf : (l.toPlain d).fields.get? (plainName name) with
  | some v => exact ((hget v).1 hf).1.symm
  | none =>
      by_cases hv : d.values name = []
      · exact hv.symm
      · rw [(hget _).2 ⟨rfl, hv⟩] at hf
        cases hf

theorem holds_toPlain (h : (l.declared.map plainName).Nodup) (hn : name ∈ l.declared)
    (value : String) : (l.toPlain d).holds (plainName name) value = d.holds name value := by
  rw [Document.holds, values_toPlain h hn, Document.holds]

theorem ofPlain_toPlain (h : (l.declared.map plainName).Nodup) (d : Document) :
    l.ofPlain (l.toPlain d) = l.restrict d := by
  have hlist : ((l.declared.filter fun name => (l.toPlain d).values (plainName name) ≠ []).map
      fun name => (name, (l.toPlain d).values (plainName name))) =
      (l.declared.filter fun name => d.values name ≠ []).map fun name => (name, d.values name) := by
    rw [List.filter_congr fun name hn => by rw [values_toPlain h hn]]
    refine List.map_congr_left fun name hn => ?_
    rw [values_toPlain h (List.mem_filter.1 hn).1]
  have hkeys : (((l.declared.filter fun name => d.values name ≠ []).map fun name =>
      (name, d.values name)).map (·.1)).Nodup := by
    rw [List.map_map, show ((·.1) ∘ fun name => (name, d.values name)) = (id : String → String) from
      rfl, List.map_id]
    exact (List.Pairwise.of_map plainName (fun _ _ hne he => hne (congrArg _ he)) h).sublist
      List.filter_sublist
  have hfields : (l.ofPlain (l.toPlain d)).fields = (l.restrict d).fields := by
    refine SortedMap.ext_get? fun name => Option.ext fun v => ?_
    rw [ofPlain, hlist, SortedMap.get?_ofList_eq_some hkeys, restrict, SortedMap.get?_filter,
      Option.filter_eq_some_iff]
    simp only [List.mem_map, List.mem_filter, decide_eq_true_iff, Prod.mk.injEq, Bool.and_eq_true]
    constructor
    · rintro ⟨name', ⟨hn, hv⟩, rfl, rfl⟩
      cases hf : d.fields.get? name' with
      | none => exact absurd (by rw [Document.values, hf]; rfl) hv
      | some v =>
          have he : d.values name' = v := by rw [Document.values, hf]; rfl
          exact ⟨congrArg some he.symm, hn, hv⟩
    · rintro ⟨hf, hn, hv⟩
      have he : d.values name = v := by rw [Document.values, hf]; rfl
      exact ⟨name, ⟨hn, he ▸ hv⟩, rfl, he⟩
  show Document.mk _ _ (l.ofPlain (l.toPlain d)).fields = _
  rw [hfields]
  rfl

end ChangeFeed.IndexLayout
