namespace ChangeFeed

open Std

/-- A finite map, as the list of its entries in ascending key order. -/
structure SortedMap (α β : Type) [Ord α] where
  toList : List (α × β)
  ascending : toList.Pairwise fun a b => compare a.1 b.1 = .lt

namespace SortedMap

variable {α β : Type} [Ord α]

theorem eq_of_toList {m n : SortedMap α β} (h : m.toList = n.toList) : m = n := by
  cases m; cases n; cases h; rfl

instance [DecidableEq α] [DecidableEq β] : DecidableEq (SortedMap α β) := fun m n =>
  decidable_of_iff (m.toList = n.toList) ⟨eq_of_toList, fun h => h ▸ rfl⟩

def empty : SortedMap α β := ⟨[], .nil⟩

instance : EmptyCollection (SortedMap α β) := ⟨empty⟩
instance : Inhabited (SortedMap α β) := ⟨empty⟩

def keys (m : SortedMap α β) : List α := m.toList.map (·.1)

def values (m : SortedMap α β) : List β := m.toList.map (·.2)

def size (m : SortedMap α β) : Nat := m.toList.length

def lookup (k : α) : List (α × β) → Option β
  | [] => none
  | (a, b) :: rest => if compare k a = .eq then some b else lookup k rest

def get? (m : SortedMap α β) (k : α) : Option β := lookup k m.toList

def contains (m : SortedMap α β) (k : α) : Bool := (m.get? k).isSome

def filter (p : α → β → Bool) (m : SortedMap α β) : SortedMap α β :=
  ⟨m.toList.filter fun e => p e.1 e.2, m.ascending.filter _⟩

def erase (m : SortedMap α β) (k : α) : SortedMap α β :=
  m.filter fun a _ => compare k a != .eq

def mapValues {γ : Type} (f : α → β → γ) (m : SortedMap α β) : SortedMap α γ :=
  ⟨m.toList.map fun e => (e.1, f e.1 e.2), List.pairwise_map.2 m.ascending⟩

def insertEntry (k : α) (v : β) : List (α × β) → List (α × β)
  | [] => [(k, v)]
  | (a, b) :: rest =>
    match compare k a with
    | .lt => (k, v) :: (a, b) :: rest
    | .eq => (k, v) :: rest
    | .gt => (a, b) :: insertEntry k v rest

theorem mem_insertEntry {k : α} {v : β} {l : List (α × β)} {e : α × β}
    (h : e ∈ insertEntry k v l) : e = (k, v) ∨ e ∈ l := by
  induction l with
  | nil => exact .inl (List.mem_singleton.1 h)
  | cons x rest ih =>
    obtain ⟨a, b⟩ := x
    unfold insertEntry at h
    split at h <;> grind

@[simp] theorem get?_empty (k : α) : (∅ : SortedMap α β).get? k = none := rfl

theorem lookup_filter_self (k : α) (l : List (α × β)) :
    lookup k (l.filter fun e => compare k e.1 != .eq) = none := by
  induction l with
  | nil => rfl
  | cons x rest ih =>
    by_cases hc : compare k x.1 = .eq
    · simp [hc, ih]
    · simp [hc, lookup, ih]

@[simp] theorem get?_erase_self (m : SortedMap α β) (k : α) : (m.erase k).get? k = none :=
  lookup_filter_self k m.toList

section LawfulEq

variable [LawfulEqOrd α]

theorem lookup_insertEntry_self (k : α) (v : β) (l : List (α × β)) :
    lookup k (insertEntry k v l) = some v := by
  induction l with
  | nil => simp [insertEntry, lookup]
  | cons x rest ih =>
    obtain ⟨a, b⟩ := x
    unfold insertEntry
    split
    next => simp [lookup]
    next => simp [lookup]
    next hc => simp [lookup, hc, ih]

theorem lookup_insertEntry_of_ne {k k' : α} (v : β) (h : k' ≠ k) (l : List (α × β)) :
    lookup k' (insertEntry k v l) = lookup k' l := by
  have hk : compare k' k ≠ .eq := fun hc => h (LawfulEqOrd.eq_of_compare hc)
  induction l with
  | nil => simp [insertEntry, lookup, hk]
  | cons x rest ih =>
    obtain ⟨a, b⟩ := x
    unfold insertEntry
    split
    next => simp [lookup, hk]
    next hc =>
      have : k = a := LawfulEqOrd.eq_of_compare hc
      subst this
      simp [lookup, hk]
    next => simp [lookup, ih]

theorem lookup_filter_of_ne {k k' : α} (h : k' ≠ k) (l : List (α × β)) :
    lookup k' (l.filter fun e => compare k e.1 != .eq) = lookup k' l := by
  induction l with
  | nil => rfl
  | cons x rest ih =>
    obtain ⟨a, b⟩ := x
    by_cases hc : compare k a = .eq
    · have hka : k = a := LawfulEqOrd.eq_of_compare hc
      have : compare k' a ≠ .eq := fun h' => h (hka ▸ LawfulEqOrd.eq_of_compare h')
      simp [hc, lookup, this, ih]
    · simp [hc, lookup, ih]

theorem get?_erase_of_ne (m : SortedMap α β) {k k' : α} (h : k' ≠ k) :
    (m.erase k).get? k' = m.get? k' := lookup_filter_of_ne h m.toList

theorem lookup_eq_some {l : List (α × β)} (hl : l.Pairwise fun a b => compare a.1 b.1 = .lt)
    {k : α} {v : β} : lookup k l = some v ↔ (k, v) ∈ l := by
  induction l with
  | nil => simp [lookup]
  | cons x rest ih =>
    obtain ⟨a, b⟩ := x
    obtain ⟨hx, hr⟩ := List.pairwise_cons.1 hl
    by_cases hc : compare k a = .eq
    · have hka : k = a := LawfulEqOrd.eq_of_compare hc
      subst hka
      have hnot : (k, v) ∉ rest := fun hm => by simpa using hx _ hm
      simp [lookup, hnot, eq_comm]
    · have hne : k ≠ a := fun h => hc (h ▸ compare_self)
      simp [lookup, hc, hne, ih hr]

theorem get?_eq_some (m : SortedMap α β) {k : α} {v : β} : m.get? k = some v ↔ (k, v) ∈ m.toList :=
  lookup_eq_some m.ascending

end LawfulEq

section Trans

variable [TransOrd α]

theorem insertEntry_ascending (k : α) (v : β) {l : List (α × β)}
    (h : l.Pairwise fun a b => compare a.1 b.1 = .lt) :
    (insertEntry k v l).Pairwise fun a b => compare a.1 b.1 = .lt := by
  induction l with
  | nil => exact List.pairwise_singleton ..
  | cons x rest ih =>
    obtain ⟨a, b⟩ := x
    obtain ⟨hx, hr⟩ := List.pairwise_cons.1 h
    unfold insertEntry
    split
    next hc =>
      refine List.pairwise_cons.2 ⟨fun e he => ?_, h⟩
      rcases List.mem_cons.1 he with rfl | he
      · exact hc
      · exact TransCmp.lt_trans hc (hx e he)
    next hc => exact List.pairwise_cons.2 ⟨fun e he => TransCmp.lt_of_eq_of_lt hc (hx e he), hr⟩
    next hc =>
      refine List.pairwise_cons.2 ⟨fun e he => ?_, ih hr⟩
      rcases mem_insertEntry he with rfl | he
      · exact OrientedCmp.lt_of_gt hc
      · exact hx e he

def insert (m : SortedMap α β) (k : α) (v : β) : SortedMap α β :=
  ⟨insertEntry k v m.toList, insertEntry_ascending k v m.ascending⟩

def ofList (l : List (α × β)) : SortedMap α β :=
  l.foldl (fun m e => m.insert e.1 e.2) ∅

variable [LawfulEqOrd α]

@[simp] theorem get?_insert_self (m : SortedMap α β) (k : α) (v : β) :
    (m.insert k v).get? k = some v := lookup_insertEntry_self k v m.toList

theorem get?_insert_of_ne (m : SortedMap α β) {k k' : α} (v : β) (h : k' ≠ k) :
    (m.insert k v).get? k' = m.get? k' := lookup_insertEntry_of_ne v h m.toList

theorem toList_eq_of_mem_iff {l r : List (α × β)}
    (hl : l.Pairwise fun a b => compare a.1 b.1 = .lt)
    (hr : r.Pairwise fun a b => compare a.1 b.1 = .lt) (h : ∀ e, e ∈ l ↔ e ∈ r) : l = r := by
  induction l generalizing r with
  | nil => cases r with
    | nil => rfl
    | cons y r => simpa using h y
  | cons x l ih =>
    cases r with
    | nil => simpa using h x
    | cons y r =>
      obtain ⟨hx, hl'⟩ := List.pairwise_cons.1 hl
      obtain ⟨hy, hr'⟩ := List.pairwise_cons.1 hr
      have irr : ∀ z : α × β, compare z.1 z.1 ≠ .lt := fun z => by simp
      have hxy : x = y := by
        rcases List.mem_cons.1 ((h x).1 (List.mem_cons_self ..)) with h1 | h1
        · exact h1
        · rcases List.mem_cons.1 ((h y).2 (List.mem_cons_self ..)) with h2 | h2
          · exact h2.symm
          · exact absurd (TransCmp.lt_trans (hx y h2) (hy x h1)) (irr x)
      subst hxy
      congr 1
      refine ih hl' hr' fun e => ⟨fun he => ?_, fun he => ?_⟩
      · rcases List.mem_cons.1 ((h e).1 (List.mem_cons_of_mem _ he)) with rfl | h1
        · exact absurd (hx e he) (irr e)
        · exact h1
      · rcases List.mem_cons.1 ((h e).2 (List.mem_cons_of_mem _ he)) with rfl | h1
        · exact absurd (hy e he) (irr e)
        · exact h1

theorem ext_get? {m n : SortedMap α β} (h : ∀ k, m.get? k = n.get? k) : m = n := by
  refine eq_of_toList (toList_eq_of_mem_iff m.ascending n.ascending fun e => ?_)
  rw [← get?_eq_some m, ← get?_eq_some n, h]

end Trans

end SortedMap

def sortDistinct {α : Type} [Ord α] [TransOrd α] (l : List α) : List α :=
  (SortedMap.ofList (l.map fun a => (a, ()))).keys

end ChangeFeed
