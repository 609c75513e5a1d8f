import ChangeFeed.SortedMap

namespace ChangeFeed

open Std

namespace SortedMap

variable {α β γ : Type} [Ord α] [LawfulEqOrd α]

theorem mem_values {m : SortedMap α β} {v : β} : v ∈ m.values ↔ ∃ k, m.get? k = some v := by
  constructor
  · intro h
    obtain ⟨⟨k, w⟩, he, rfl⟩ := List.mem_map.1 h
    exact ⟨k, m.get?_eq_some.2 he⟩
  · intro hend
    obtain ⟨k, hk⟩ := hend
    exact List.mem_map.2 ⟨(k, v), m.get?_eq_some.1 hk, rfl⟩

theorem mem_keys {m : SortedMap α β} {k : α} : k ∈ m.keys ↔ (m.get? k).isSome := by
  rw [Option.isSome_iff_exists]
  constructor
  · intro h
    obtain ⟨⟨a, v⟩, he, rfl⟩ := List.mem_map.1 h
    exact ⟨v, m.get?_eq_some.2 he⟩
  · intro hend
    obtain ⟨v, hv⟩ := hend
    exact List.mem_map.2 ⟨(k, v), m.get?_eq_some.1 hv, rfl⟩

theorem keys_nodup (m : SortedMap α β) : m.keys.Nodup := by
  refine List.pairwise_map.2 (m.ascending.imp ?_)
  intro a b h he
  simp [he] at h

omit [LawfulEqOrd α] in
theorem contains_iff {m : SortedMap α β} {k : α} : m.contains k = true ↔ ∃ v, m.get? k = some v :=
  Option.isSome_iff_exists

theorem get?_filter (p : α → β → Bool) (m : SortedMap α β) (k : α) :
    (m.filter p).get? k = (m.get? k).filter (p k) := by
  ext v
  rw [get?_eq_some, Option.filter_eq_some_iff, get?_eq_some]
  exact List.mem_filter

theorem get?_mapValues (f : α → β → γ) (m : SortedMap α β) (k : α) :
    (m.mapValues f).get? k = (m.get? k).map (f k) := by
  ext w
  rw [get?_eq_some, Option.map_eq_some_iff]
  constructor
  · intro h
    obtain ⟨⟨a, v⟩, he, hw⟩ := List.mem_map.1 h
    cases hw
    exact ⟨v, m.get?_eq_some.2 he, rfl⟩
  · intro hend
    obtain ⟨v, hv, rfl⟩ := hend
    exact List.mem_map.2 ⟨(k, v), m.get?_eq_some.1 hv, rfl⟩

theorem get?_erase [DecidableEq α] (m : SortedMap α β) (k k' : α) :
    (m.erase k).get? k' = if k' = k then none else m.get? k' := by
  split
  next h => rw [h, get?_erase_self]
  next h => rw [get?_erase_of_ne m h]

variable [TransOrd α]

theorem get?_insert [DecidableEq α] (m : SortedMap α β) (k k' : α) (v : β) :
    (m.insert k v).get? k' = if k' = k then some v else m.get? k' := by
  split
  next h => rw [h, get?_insert_self]
  next h => rw [get?_insert_of_ne m v h]

omit [LawfulEqOrd α] in
private theorem insertEntry_eq_append {k : α} (v : β) {l : List (α × β)}
    (h : ∀ e ∈ l, compare e.1 k = .lt) : insertEntry k v l = l ++ [(k, v)] := by
  induction l with
  | nil => rfl
  | cons x rest ih =>
      have hx : compare k x.1 = .gt := OrientedCmp.gt_of_lt (h x (List.mem_cons_self ..))
      have hrest := ih fun e he => h e (List.mem_cons_of_mem _ he)
      simp [insertEntry, hx, hrest]

omit [LawfulEqOrd α] in
theorem values_insert_of_lt {m : SortedMap α β} {k : α} (v : β)
    (h : ∀ e ∈ m.toList, compare e.1 k = .lt) : (m.insert k v).values = m.values ++ [v] := by
  show (insertEntry k v m.toList).map (·.2) = _
  rw [insertEntry_eq_append v h, List.map_append]
  rfl

omit [LawfulEqOrd α] in
theorem keys_insert_of_lt {m : SortedMap α β} {k : α} (v : β)
    (h : ∀ a ∈ m.keys, compare a k = .lt) : (m.insert k v).keys = m.keys ++ [k] := by
  show (insertEntry k v m.toList).map (·.1) = _
  rw [insertEntry_eq_append v fun e he => h e.1 (List.mem_map_of_mem he), List.map_append]
  rfl

private theorem get?_foldl_insert_isSome (l : List (α × β)) (m : SortedMap α β) (k : α) :
    ((l.foldl (fun m e => m.insert e.1 e.2) m).get? k).isSome ↔
      (m.get? k).isSome ∨ ∃ e ∈ l, e.1 = k := by
  induction l generalizing m with
  | nil => simp
  | cons x l ih =>
      rw [List.foldl_cons, ih]
      by_cases hk : k = x.1
      · subst hk
        simp
      · simp [get?_insert_of_ne m x.2 hk, Ne.symm hk]

private theorem get?_foldl_insert_of_nodup {l : List (α × β)} (h : (l.map (·.1)).Nodup)
    (m : SortedMap α β) {k : α} {v : β} :
    (l.foldl (fun m e => m.insert e.1 e.2) m).get? k = some v ↔
      (k, v) ∈ l ∨ (∀ e ∈ l, e.1 ≠ k) ∧ m.get? k = some v := by
  induction l generalizing m with
  | nil => simp
  | cons x l ih =>
      obtain ⟨a, b⟩ := x
      obtain ⟨hx, hl⟩ := List.nodup_cons.1 h
      have hfresh : ∀ e ∈ l, e.1 ≠ a := fun e he hk => hx (List.mem_map.2 ⟨e, he, hk⟩)
      rw [List.foldl_cons, ih hl]
      by_cases hk : k = a
      · subst hk
        have hnot : (k, v) ∉ l := fun hm => hfresh _ hm rfl
        rw [get?_insert_self, List.mem_cons]
        constructor
        · rintro (hm | ⟨-, he⟩)
          · exact absurd hm hnot
          · cases he
            exact .inl (.inl rfl)
        · rintro ((he | hm) | ⟨hne, -⟩)
          · cases he
            exact .inr ⟨hfresh, rfl⟩
          · exact absurd hm hnot
          · exact absurd rfl (hne _ (List.mem_cons_self ..))
      · simp [get?_insert_of_ne m b hk, hk, Ne.symm hk]

theorem get?_ofList_eq_some {l : List (α × β)} (h : (l.map (·.1)).Nodup) {k : α} {v : β} :
    (ofList l).get? k = some v ↔ (k, v) ∈ l := by
  simp [ofList, get?_foldl_insert_of_nodup h]

theorem ofList_toList (m : SortedMap α β) : ofList m.toList = m := by
  refine ext_get? fun k => Option.ext fun v => ?_
  rw [get?_ofList_eq_some m.keys_nodup, get?_eq_some]

omit [TransOrd α] in
theorem toList_nodup (m : SortedMap α β) : m.toList.Nodup := by
  refine m.ascending.imp ?_
  rintro a b h rfl
  simp at h

theorem toList_insert_perm [DecidableEq α] (m : SortedMap α β) (k : α) (v : β) :
    (m.insert k v).toList.Perm ((k, v) :: (m.erase k).toList) := by
  have hnd : ((k, v) :: (m.erase k).toList).Nodup := by
    refine List.nodup_cons.2 ⟨?_, toList_nodup _⟩
    intro hm
    rw [← get?_eq_some, get?_erase_self] at hm
    cases hm
  refine (List.perm_ext_iff_of_nodup (toList_nodup _) hnd).2 ?_
  rintro ⟨k', v'⟩
  rw [List.mem_cons, ← get?_eq_some, ← get?_eq_some, get?_insert, get?_erase]
  by_cases hk : k' = k
  · simp [hk, eq_comm]
  · simp [hk]

theorem get?_ofList_isSome (l : List (α × β)) (k : α) :
    ((ofList l).get? k).isSome ↔ ∃ e ∈ l, e.1 = k := by
  simp [ofList, get?_foldl_insert_isSome]

end SortedMap

section

variable {α : Type} [Ord α] [TransOrd α] [LawfulEqOrd α]

theorem mem_sortDistinct {l : List α} {a : α} : a ∈ sortDistinct l ↔ a ∈ l := by
  rw [sortDistinct]
  rw [SortedMap.mem_keys, SortedMap.get?_ofList_isSome]
  simp

theorem sortDistinct_nodup (l : List α) : (sortDistinct l).Nodup := SortedMap.keys_nodup _

end

end ChangeFeed
