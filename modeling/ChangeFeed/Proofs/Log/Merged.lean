import ChangeFeed.Log.Merge

namespace ChangeFeed

/-- Rows come by sequence id, and of equal ids by the position of their table. -/
def Delivery.le (a b : Delivery) : Bool :=
  a.2.sequence < b.2.sequence || (a.2.sequence = b.2.sequence && a.1 ≤ b.1)

def LogRow.Ascending (rows : List LogRow) : Prop := rows.Pairwise (·.sequence < ·.sequence)

open LogRow

theorem LogRow.Ascending.eq_of_sequence {rows : List LogRow} (h : Ascending rows) {r s : LogRow}
    (hr : r ∈ rows) (hs : s ∈ rows) (he : r.sequence = s.sequence) : r = s := by
  induction rows with
  | nil => cases hr
  | cons x rows ih =>
      obtain ⟨hx, hrows⟩ := List.pairwise_cons.1 h
      rcases List.mem_cons.1 hr with rfl | hr' <;> rcases List.mem_cons.1 hs with rfl | hs'
      · rfl
      · exact absurd (hx s hs') (by simp [he])
      · exact absurd (hx r hr') (by simp [he])
      · exact ih hrows hr' hs'

theorem LogRow.Ascending.filter {rows : List LogRow} (h : Ascending rows) (q : LogRow → Bool) :
    Ascending (rows.filter q) := List.Pairwise.filter q h

theorem LogRow.Ascending.nodup {rows : List LogRow} (h : Ascending rows) : rows.Nodup := by
  refine h.imp ?_
  intro r s hrs he
  simp [he] at hrs

namespace Delivery

theorem le_iff {a b : Delivery} : le a b ↔ a.2.sequence.toInt < b.2.sequence.toInt ∨
    a.2.sequence.toInt = b.2.sequence.toInt ∧ a.1 ≤ b.1 := by
  simp [le, Int64.lt_iff_toInt_lt, Int64.toInt_inj]

theorem le_trans (a b c : Delivery) (hab : le a b) (hbc : le b c) : le a c := by
  rw [le_iff] at *
  omega

theorem le_total (a b : Delivery) : (le a b || le b a) = true := by
  rw [Bool.or_eq_true, le_iff, le_iff]
  omega

end Delivery

namespace Merge

open Delivery

def tagged (i : Nat) : List (List LogRow) → List Delivery
  | [] => []
  | rows :: rest => rows.map (i, ·) ++ tagged (i + 1) rest

def merged (tables : List (List LogRow)) : List Delivery := (tagged 0 tables).mergeSort le

theorem mem_tagged {i j : Nat} {r : LogRow} {tables : List (List LogRow)} :
    (j, r) ∈ tagged i tables ↔ ∃ k rows, j = i + k ∧ tables[k]? = some rows ∧ r ∈ rows := by
  induction tables generalizing i with
  | nil => simp [tagged]
  | cons rows rest ih =>
      rw [tagged, List.mem_append, ih]
      constructor
      · rintro (h | ⟨k, rows', rfl, hk, hr⟩)
        · obtain ⟨r', hr', he⟩ := List.mem_map.1 h
          cases he
          exact ⟨0, rows, rfl, rfl, hr'⟩
        · exact ⟨k + 1, rows', by omega, hk, hr⟩
      · intro hend
        obtain ⟨k, rows', rfl, hk, hr⟩ := hend
        cases k with
        | zero =>
            cases hk
            exact .inl (List.mem_map.2 ⟨r, hr, rfl⟩)
        | succ k => exact .inr ⟨k, rows', by omega, hk, hr⟩

theorem tagged_modify (i : Nat) {k : Nat} {tables : List (List LogRow)} {rows : List LogRow}
    (hk : tables[k]? = some rows) : ∃ before after, ∀ f : List LogRow → List LogRow,
      tagged i (tables.modify k f) = before ++ ((f rows).map (i + k, ·) ++ after) := by
  induction tables generalizing i k with
  | nil => simp at hk
  | cons first rest ih =>
      cases k with
      | zero =>
          cases hk
          exact ⟨[], tagged (i + 1) rest, fun f => rfl⟩
      | succ k =>
          obtain ⟨before, after, h⟩ := ih (i + 1) hk
          refine ⟨first.map (i, ·) ++ before, after, fun f => ?_⟩
          rw [List.modify_succ_cons, tagged, h f, List.append_assoc,
            show i + 1 + k = i + (k + 1) by omega]

variable {tables : List (List LogRow)}

theorem le_antisymm_of_mem_tagged (h : ∀ rows ∈ tables, Ascending rows) {i : Nat} {a b : Delivery}
    (ha : a ∈ tagged i tables) (hb : b ∈ tagged i tables) (hab : le a b) (hba : le b a) : a = b := by
  obtain ⟨j, r⟩ := a
  obtain ⟨j', s⟩ := b
  rw [le_iff] at hab hba
  obtain ⟨k, rows, rfl, hk, hr⟩ := mem_tagged.1 ha
  obtain ⟨k', rows', rfl, hk', hs⟩ := mem_tagged.1 hb
  dsimp only at hab hba
  have hkk : k = k' := by omega
  have he : r.sequence = s.sequence := Int64.toInt_inj.1 (by omega)
  subst k'
  cases hk.symm.trans hk'
  rw [(h rows (List.mem_of_getElem? hk)).eq_of_sequence hr hs he]

/-- The merged list is the only one in order with the rows of the tables. -/
theorem merged_eq (h : ∀ rows ∈ tables, Ascending rows) {ds : List Delivery}
    (hp : ds.Perm (tagged 0 tables)) (hs : ds.Pairwise fun a b => le a b) : merged tables = ds := by
  have hm : (merged tables).Perm (tagged 0 tables) := List.mergeSort_perm ..
  refine (hm.trans hp.symm).eq_of_pairwise ?_ (List.pairwise_mergeSort le_trans le_total _) hs
  intro a b ha hb hab hba
  exact le_antisymm_of_mem_tagged h (hm.mem_iff.1 ha) (hp.mem_iff.1 hb) hab hba

theorem merged_pairwise (tables : List (List LogRow)) :
    (merged tables).Pairwise fun a b => le a b := List.pairwise_mergeSort le_trans le_total _

theorem mem_merged {d : Delivery} : d ∈ merged tables ↔ d ∈ tagged 0 tables :=
  (List.mergeSort_perm ..).mem_iff

theorem length_tagged (i : Nat) (tables : List (List LogRow)) :
    (tagged i tables).length = tables.flatten.length := by
  induction tables generalizing i with
  | nil => rfl
  | cons rows rest ih =>
      rw [tagged, List.length_append, List.length_map, ih, List.flatten_cons, List.length_append]

theorem length_merged (tables : List (List LogRow)) :
    (merged tables).length = tables.flatten.length := by
  rw [merged, List.length_mergeSort, length_tagged]

theorem merged_eq_nil_iff : merged tables = [] ↔ ∀ rows ∈ tables, rows = [] := by
  rw [List.eq_nil_iff_forall_not_mem]
  constructor
  · intro h rows hm
    obtain ⟨k, hk⟩ := List.getElem?_of_mem hm
    rw [List.eq_nil_iff_forall_not_mem]
    intro r hr
    exact h (0 + k, r) (mem_merged.2 (mem_tagged.2 ⟨k, rows, rfl, hk, hr⟩))
  · rintro h ⟨j, r⟩ hd
    obtain ⟨k, rows, -, hk, hr⟩ := mem_tagged.1 (mem_merged.1 hd)
    rw [h rows (List.mem_of_getElem? hk)] at hr
    cases hr

theorem ascending_modify {k : Nat} {f : List LogRow → List LogRow}
    (h : ∀ rows ∈ tables, Ascending rows) (hf : ∀ rows, tables[k]? = some rows → Ascending (f rows)) :
    ∀ rows ∈ tables.modify k f, Ascending rows := by
  intro rows hm
  obtain ⟨j, hj⟩ := List.getElem?_of_mem hm
  rw [List.getElem?_modify] at hj
  obtain ⟨rows', hr, rfl⟩ := Option.map_eq_some_iff.1 hj
  by_cases hk : k = j
  · subst hk
    simpa using hf rows' hr
  · simpa [hk] using h rows' (List.mem_of_getElem? hr)

theorem merged_cons (h : ∀ rows ∈ tables, Ascending rows) {k : Nat} {r : LogRow}
    {rest : List LogRow} (hk : tables[k]? = some (r :: rest))
    (hmin : ∀ d ∈ tagged 0 tables, le (k, r) d) :
    merged tables = (k, r) :: merged (tables.modify k List.tail) := by
  obtain ⟨before, after, hf⟩ := tagged_modify 0 hk
  have hall : tagged 0 tables = before ++ ((r :: rest).map (0 + k, ·) ++ after) := by
    have h' := hf id
    rwa [List.modify_id] at h'
  have hrest : tagged 0 (tables.modify k List.tail) = before ++ (rest.map (0 + k, ·) ++ after) :=
    hf List.tail
  rw [Nat.zero_add] at hall hrest
  have hp : ((k, r) :: merged (tables.modify k List.tail)).Perm (tagged 0 tables) := by
    rw [hall, List.map_cons, List.cons_append]
    refine (List.Perm.cons _ ?_).trans List.perm_middle.symm
    rw [← hrest]
    exact List.mergeSort_perm ..
  refine merged_eq h hp (List.pairwise_cons.2 ⟨?_, merged_pairwise _⟩)
  intro d hd
  exact hmin d (hp.mem_iff.1 (List.mem_cons_of_mem _ hd))

theorem merged_modify_append (h : ∀ rows ∈ tables, Ascending rows) {k : Nat} {rows : List LogRow}
    {r : LogRow} (hk : tables[k]? = some rows)
    (hmax : ∀ d ∈ tagged 0 tables, d.2.sequence < r.sequence) :
    merged (tables.modify k (· ++ [r])) = merged tables ++ [(k, r)] := by
  obtain ⟨before, after, hf⟩ := tagged_modify 0 hk
  have hall : tagged 0 tables = before ++ (rows.map (k, ·) ++ after) := by
    have h' := hf id
    rwa [List.modify_id, Nat.zero_add] at h'
  have hmore : tagged 0 (tables.modify k (· ++ [r])) =
      before ++ ((rows ++ [r]).map (k, ·) ++ after) := by
    rw [hf, Nat.zero_add]
  have hasc : ∀ rows ∈ tables.modify k (· ++ [r]), Ascending rows := by
    refine ascending_modify h fun rows' hr => ?_
    cases hk.symm.trans hr
    refine List.pairwise_append.2 ⟨h rows (List.mem_of_getElem? hk), List.pairwise_singleton .., ?_⟩
    intro s hs r' hr'
    cases List.mem_singleton.1 hr'
    exact hmax (k, s) (mem_tagged.2 ⟨k, rows, (Nat.zero_add k).symm, hk, hs⟩)
  refine merged_eq hasc ?_ (List.pairwise_append.2 ⟨merged_pairwise _, List.pairwise_singleton .., ?_⟩)
  · rw [hmore, List.map_append, List.map_singleton, List.append_assoc]
    refine ((List.mergeSort_perm ..).append_right [(k, r)]).trans ?_
    rw [hall, List.append_assoc, List.append_assoc]
    exact ((List.perm_append_comm.append_left _).append_left _)
  · intro d hd d' hd'
    cases List.mem_singleton.1 hd'
    have hlt := Int64.lt_iff_toInt_lt.1 (hmax d (mem_merged.1 hd))
    exact le_iff.2 (.inl hlt)

theorem tagged_nodup (i : Nat) (h : ∀ rows ∈ tables, Ascending rows) : (tagged i tables).Nodup := by
  induction tables generalizing i with
  | nil => exact List.nodup_nil
  | cons rows rest ih =>
      have hrest := ih (i + 1) fun rows hr => h rows (List.mem_cons_of_mem _ hr)
      have hfirst : (rows.map (i, ·)).Nodup := by
        refine List.pairwise_map.2 ((h rows (List.mem_cons_self ..)).nodup.imp ?_)
        intro r s hrs he
        exact hrs (congrArg (·.2) he)
      refine List.nodup_append.2 ⟨hfirst, hrest, ?_⟩
      rintro d hd ⟨j, r⟩ hd' rfl
      obtain ⟨k, -, hj, -, -⟩ := mem_tagged.1 hd'
      obtain ⟨s, -, hs⟩ := List.mem_map.1 hd
      cases hs
      omega

theorem merged_nodup (h : ∀ rows ∈ tables, Ascending rows) : (merged tables).Nodup :=
  (List.mergeSort_perm ..).nodup_iff.2 (tagged_nodup 0 h)

section

variable {μ : Type} {T U : μ → List LogRow} {q : Delivery → Bool}

theorem tagged_filter {ms : List μ} (i : Nat)
    (h : ∀ k m, ms[k]? = some m → U m = (T m).filter fun r => q (i + k, r)) :
    tagged i (ms.map U) = (tagged i (ms.map T)).filter q := by
  induction ms generalizing i with
  | nil => rfl
  | cons m ms ih =>
      have hrest := ih (i + 1) fun k m hk => by
        rw [h (k + 1) m hk, show i + (k + 1) = i + 1 + k by omega]
      rw [List.map_cons, List.map_cons, tagged, tagged, List.filter_append, hrest, h 0 m rfl,
        List.filter_map]
      rfl

theorem merged_filter {ms : List μ} (hT : ∀ m ∈ ms, Ascending (T m))
    (h : ∀ k m, ms[k]? = some m → U m = (T m).filter fun r => q (k, r)) :
    merged (ms.map U) = (merged (ms.map T)).filter q := by
  have ht := tagged_filter (q := q) 0 (by simpa only [Nat.zero_add] using h)
  have hU : ∀ rows ∈ ms.map U, Ascending rows := by
    intro rows hr
    obtain ⟨m, hm, rfl⟩ := List.mem_map.1 hr
    obtain ⟨k, hk⟩ := List.getElem?_of_mem hm
    rw [h k m hk]
    exact (hT m hm).filter _
  refine merged_eq hU ?_ ((merged_pairwise _).filter q)
  rw [ht]
  exact (List.mergeSort_perm ..).filter q

end

end Merge

end ChangeFeed
