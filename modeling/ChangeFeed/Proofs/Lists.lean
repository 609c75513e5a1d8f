import ChangeFeed.Proofs.Ends
import Mathlib.Data.List.Induction
import Mathlib.Data.List.Nodup

namespace ChangeFeed

section

variable {α κ : Type} {l : List α} {a : α}

theorem modify_eq_set {k : Nat} (f : α → α) (h : l[k]? = some a) : l.modify k f = l.set k (f a) := by
  rw [List.modify_eq_set_getElem?, h]
  rfl

theorem find?_of_mem [DecidableEq κ] {f : α → κ} (h : (l.map f).Nodup) (ha : a ∈ l) :
    l.find? (fun b => decide (f b = f a)) = some a := by
  induction l with
  | nil => cases ha
  | cons b l ih =>
      rw [List.map_cons, List.nodup_cons] at h
      rcases List.mem_cons.1 ha with rfl | ha
      · simp
      · have hne : f b ≠ f a := fun he => h.1 (he ▸ List.mem_map_of_mem ha)
        simpa [hne] using ih h.2 ha

theorem eq_of_key [DecidableEq κ] {f : α → κ} (h : (l.map f).Nodup) {b : α} (ha : a ∈ l) (hb : b ∈ l)
    (he : f a = f b) : a = b := by
  have hfind := find?_of_mem h ha
  rw [he, find?_of_mem h hb] at hfind
  exact (Option.some.inj hfind).symm

theorem filter_eq_singleton (h : l.Nodup) (ha : a ∈ l) {p : α → Bool}
    (hp : ∀ b ∈ l, p b = true ↔ b = a) : l.filter p = [a] := by
  induction l with
  | nil => cases ha
  | cons b l ih =>
      obtain ⟨hb, hl⟩ := List.nodup_cons.1 h
      obtain ⟨hpb, hpl⟩ := List.forall_mem_cons.1 hp
      rcases List.mem_cons.1 ha with rfl | ha
      · have hrest : l.filter p = [] := by
          rw [List.filter_eq_nil_iff]
          intro c hc hpc
          exact hb ((hpl c hc).1 hpc ▸ hc)
        rw [List.filter_cons_of_pos (hpb.2 rfl), hrest]
      · have hne : ¬ p b = true := fun hpb' => hb (hpb.1 hpb' ▸ ha)
        rw [List.filter_cons_of_neg hne, ih hl ha hpl]

theorem flatMap_eq_of_unique {β : Type} (hnd : l.Nodup) (ha : a ∈ l) {f : α → List β}
    (h : ∀ b ∈ l, b ≠ a → f b = []) : l.flatMap f = f a := by
  induction l with
  | nil => cases ha
  | cons b l ih =>
      obtain ⟨hb, hnd⟩ := List.nodup_cons.1 hnd
      rw [List.flatMap_cons]
      rcases List.mem_cons.1 ha with rfl | ha
      · have hrest : l.flatMap f = [] := List.flatMap_eq_nil_iff.2 fun c hc =>
          h c (List.mem_cons_of_mem _ hc) fun he => hb (he ▸ hc)
        rw [hrest, List.append_nil]
      · rw [h b (List.mem_cons_self ..) fun he => hb (he ▸ ha), List.nil_append,
          ih hnd ha fun c hc => h c (List.mem_cons_of_mem _ hc)]

theorem flatMap_eq_self {f : α → List α} (h : ∀ a ∈ l, f a = [a]) : l.flatMap f = l := by
  induction l with
  | nil => rfl
  | cons a l ih =>
      rw [List.flatMap_cons, h a (List.mem_cons_self ..), ih fun b hb => h b (List.mem_cons_of_mem _ hb)]
      rfl

end

section

variable {α : Type} [BEq α] [LawfulBEq α] {l xs ys : List α}

theorem filter_not_mem_append (h : (xs ++ ys).Nodup) :
    (xs ++ ys).filter (· ∉ xs) = ys ∧ (xs ++ ys).filter (· ∉ ys) = xs := by
  obtain ⟨-, -, hdisj⟩ := List.nodup_append.1 h
  have hself (l : List α) : l.filter (· ∉ l) = [] := List.filter_eq_nil_iff.2 (by simp)
  constructor
  · rw [List.filter_append, hself, List.nil_append]
    refine List.filter_eq_self.2 fun y hy => ?_
    simpa using fun hx => hdisj y hx y hy rfl
  · rw [List.filter_append, hself, List.append_nil]
    refine List.filter_eq_self.2 fun x hx => ?_
    simpa using fun hy => hdisj x hx x hy rfl

theorem filter_not_mem_take (h : l.Nodup) (n : Nat) : l.filter (· ∉ l.take n) = l.drop n := by
  rw [← List.take_append_drop n l] at h
  have hrest := (filter_not_mem_append h).1
  rwa [List.take_append_drop] at hrest

theorem filter_not_mem_drop (h : l.Nodup) (n : Nat) : l.filter (· ∉ l.drop n) = l.take n := by
  rw [← List.take_append_drop n l] at h
  have hfirst := (filter_not_mem_append h).2
  rwa [List.take_append_drop] at hfirst

theorem eraseDups_concat (l : List α) (a : α) :
    (l ++ [a]).eraseDups = if l.contains a then l.eraseDups else l.eraseDups ++ [a] := by
  rw [List.eraseDups_append]
  by_cases ha : a ∈ l
  · simp [List.removeAll, ha]
  · simp [List.removeAll, ha, List.eraseDups_cons]

theorem nodup_eraseDups (l : List α) : l.eraseDups.Nodup := by
  induction l using List.reverseRecOn with
  | nil => exact List.nodup_nil
  | append_singleton l a ih =>
      rw [eraseDups_concat]
      split
      next => exact ih
      next ha =>
        refine List.nodup_append.2 ⟨ih, List.nodup_singleton a, ?_⟩
        rintro b hb _ hc rfl
        obtain rfl := List.mem_singleton.1 hc
        exact ha (List.contains_iff_mem.2 (List.mem_eraseDups.1 hb))

end

section

variable {ε α β γ : Type} {f : α → Except ε β} {l : List α} {ys : List β}

theorem mapM_eq_map {g : α → β} (h : ∀ x ∈ l, f x = .ok (g x)) : l.mapM f = .ok (l.map g) := by
  induction l with
  | nil => rfl
  | cons x l ih =>
      rw [List.mapM_cons, h x (List.mem_cons_self ..), ih fun y hy => h y (List.mem_cons_of_mem _ hy)]
      rfl

theorem mapM_cons_eq_ok {x : α} : (x :: l).mapM f = .ok ys ↔
    ∃ y zs, ys = y :: zs ∧ f x = .ok y ∧ l.mapM f = .ok zs := by
  rw [List.mapM_cons, bind_eq_ok]
  constructor
  · rintro ⟨y, hy, h⟩
    obtain ⟨zs, hzs, h⟩ := bind_eq_ok.1 h
    cases h
    exact ⟨y, zs, rfl, hy, hzs⟩
  · rintro ⟨y, zs, rfl, hy, hzs⟩
    exact ⟨y, hy, bind_eq_ok.2 ⟨zs, hzs, rfl⟩⟩

theorem mapM_take (h : l.mapM f = .ok ys) (n : Nat) : (l.take n).mapM f = .ok (ys.take n) := by
  induction l generalizing ys n with
  | nil =>
      cases h
      cases n <;> rfl
  | cons x l ih =>
      obtain ⟨y, zs, rfl, hy, hzs⟩ := mapM_cons_eq_ok.1 h
      cases n with
      | zero => rfl
      | succ n => exact mapM_cons_eq_ok.2 ⟨y, zs.take n, rfl, hy, ih hzs n⟩

theorem exists_mapM_error {e : ε} (h : l.mapM f = .error e) : ∃ x ∈ l, f x = .error e := by
  induction l with
  | nil => cases h
  | cons x l ih =>
      rw [List.mapM_cons, bind_eq_error] at h
      rcases h with h | ⟨y, -, h⟩
      · exact ⟨x, List.mem_cons_self .., h⟩
      rcases bind_eq_error.1 h with h | ⟨ys, -, h⟩
      · obtain ⟨z, hz, hfz⟩ := ih h
        exact ⟨z, List.mem_cons_of_mem _ hz, hfz⟩
      · cases h

theorem mapM_error {x : α} (hx : x ∈ l) (h : ∃ e, f x = .error e) : ∃ e, l.mapM f = .error e := by
  induction l with
  | nil => cases hx
  | cons y l ih =>
      rw [List.mapM_cons]
      cases hy : f y with
      | error e => exact ⟨e, rfl⟩
      | ok b =>
          rcases List.mem_cons.1 hx with rfl | hx
          · obtain ⟨e, he⟩ := h
            rw [hy] at he
            cases he
          · obtain ⟨e, he⟩ := ih hx
            rw [he]
            exact ⟨e, rfl⟩

theorem exists_mapM_ok {P : β → Prop} (h : ∀ x ∈ l, ∃ y, f x = .ok y ∧ P y) :
    ∃ ys, l.mapM f = .ok ys ∧ ∀ y ∈ ys, P y := by
  induction l with
  | nil => exact ⟨[], rfl, List.forall_mem_nil _⟩
  | cons x l ih =>
      obtain ⟨⟨y, hy, hPy⟩, hl⟩ := List.forall_mem_cons.1 h
      obtain ⟨ys, hys, hP⟩ := ih hl
      exact ⟨y :: ys, mapM_cons_eq_ok.2 ⟨y, ys, rfl, hy, hys⟩, List.forall_mem_cons.2 ⟨hPy, hP⟩⟩

/-- What is read has the key of what it is read from. -/
def KeepsKey (f : α → Except ε β) (key : α → γ) (key' : β → γ) (l : List α) : Prop :=
  ∀ x ∈ l, ∀ y, f x = .ok y → key' y = key x

theorem KeepsKey.map_eq {key : α → γ} {key' : β → γ} (hf : KeepsKey f key key' l)
    (h : l.mapM f = .ok ys) : ys.map key' = l.map key := by
  induction l generalizing ys with
  | nil =>
      cases h
      rfl
  | cons x l ih =>
      obtain ⟨y, zs, rfl, hy, hzs⟩ := mapM_cons_eq_ok.1 h
      rw [List.map_cons, List.map_cons, hf x (List.mem_cons_self ..) y hy,
        ih (fun x hx => hf x (List.mem_cons_of_mem _ hx)) hzs]

theorem KeepsKey.mapM_filter {key : α → γ} {key' : β → γ} (hf : KeepsKey f key key' l)
    (h : l.mapM f = .ok ys) (p : γ → Bool) :
    (l.filter fun x => p (key x)).mapM f = .ok (ys.filter fun y => p (key' y)) := by
  induction l generalizing ys with
  | nil =>
      cases h
      rfl
  | cons x l ih =>
      obtain ⟨y, zs, rfl, hy, hzs⟩ := mapM_cons_eq_ok.1 h
      have hrest := ih (fun x hx => hf x (List.mem_cons_of_mem _ hx)) hzs
      have hkey := hf x (List.mem_cons_self ..) y hy
      rw [List.filter_cons, List.filter_cons, hkey]
      by_cases hp : p (key x) = true
      · rw [if_pos hp, if_pos hp]
        exact mapM_cons_eq_ok.2 ⟨y, _, rfl, hy, hrest⟩
      · rw [if_neg hp, if_neg hp]
        exact hrest

theorem mapM_eq_ok_iff {g : α → Option β} (h : ∀ x v, f x = .ok v ↔ g x = some v) :
    l.mapM f = .ok ys ↔ l.mapM g = some ys := by
  induction l generalizing ys with
  | nil => simp [pure, Except.pure]
  | cons x l ih =>
      rw [mapM_cons_eq_ok, List.mapM_cons]
      constructor
      · rintro ⟨y, zs, rfl, hy, hzs⟩
        rw [(h x y).1 hy, ih.1 hzs]
        rfl
      · intro hend
        obtain ⟨y, hy, hend⟩ := Option.bind_eq_some_iff.1 hend
        obtain ⟨zs, hzs, hend⟩ := Option.bind_eq_some_iff.1 hend
        cases hend
        exact ⟨y, zs, rfl, (h x y).2 hy, ih.2 hzs⟩

theorem isSome_mapM_iff {g : α → Option β} : (l.mapM g).isSome ↔ ∀ x ∈ l, (g x).isSome := by
  induction l with
  | nil => simp
  | cons x l ih =>
      rw [List.mapM_cons, List.forall_mem_cons, ← ih]
      cases g x <;> cases l.mapM g <;> simp

theorem mapM_isSome {g : α → Option β} (h : ∀ x ∈ l, g x ≠ none) : ∃ ys, l.mapM g = some ys :=
  Option.isSome_iff_exists.1 (isSome_mapM_iff.2 fun x hx => Option.isSome_iff_ne_none.2 (h x hx))

theorem mapM_congr_zip {g : α → Option γ} {g' : β → Option γ} {as : List α} {bs : List β}
    (hl : as.length = bs.length) (h : ∀ p ∈ as.zip bs, g p.1 = g' p.2) : as.mapM g = bs.mapM g' := by
  induction as generalizing bs with
  | nil =>
      obtain rfl := List.length_eq_zero_iff.1 hl.symm
      rfl
  | cons a as ih =>
      cases bs with
      | nil => cases hl
      | cons b bs =>
          rw [List.zip_cons_cons, List.forall_mem_cons] at h
          rw [List.mapM_cons, List.mapM_cons, h.1, ih (Nat.succ.inj hl) h.2]

end

end ChangeFeed
