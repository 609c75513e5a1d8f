import ChangeFeed.Proofs.Poller

namespace ChangeFeed

open Act

variable {κ : Type}

namespace Consumer

def Healthy (c : Consumer κ) : Prop := ∀ events k, ∃ k', c.receive events k = .ok () k'

theorem Healthy.ends {c : Consumer κ} (h : c.Healthy) (events : List ChangeEvent) (k : κ) :
    Ends (c.receive events) k (fun _ _ => True) fun _ _ => False := by
  obtain ⟨k', hk⟩ := h events k
  rw [Ends, hk]
  trivial

end Consumer

namespace Poller

variable {policy : FailurePolicy} {events : List ChangeEvent} {cs : List (Consumer κ)}

theorem dispatch_keeps {inv : κ → Prop} {faulty : Prop} (h : ∀ c ∈ cs, ∀ k, inv k →
      Ends (c.receive events) k (fun _ t => inv t) fun _ t => faulty ∧ inv t) {k : κ} (hk : inv k) :
    Ends (dispatch policy events cs) k (fun _ t => inv t) fun _ t => faulty ∧ inv t := by
  induction cs generalizing k with
  | nil => exact ends_pure hk
  | cons c cs ih =>
      have hrest := fun k (hk : inv k) => ih (fun c hc => h c (List.mem_cons_of_mem _ hc)) hk
      rw [dispatch]
      refine (h c (List.mem_cons_self ..) k hk).attempt_bind ?_ ?_
      · intro _ t ht
        exact hrest t ht
      · intro e t hend
        obtain ⟨hf, ht⟩ := hend
        cases policy with
        | abort => exact ends_throw ⟨hf, ht⟩
        | logAndContinue =>
            refine (hrest t ht).bind ?_
            intro _ t' ht'
            exact ends_pure ht'

theorem dispatch_abort {α : Type} {g : α → Consumer κ} {inv done : κ → Prop} {special : α → Prop}
    (h : ∀ x k, inv k → Ends ((g x).receive events) k
      (fun _ t => inv t ∧ (done k → done t) ∧ (special x → done t)) fun _ t => inv t)
    (xs : List α) {k : κ} (hk : inv k) :
    Ends (dispatch .abort events (xs.map g)) k
      (fun _ t => inv t ∧ (done k → done t) ∧ ((∃ x ∈ xs, special x) → done t)) fun _ t => inv t := by
  induction xs generalizing k with
  | nil => exact ends_pure ⟨hk, id, by simp⟩
  | cons x xs ih =>
      rw [List.map_cons, dispatch]
      refine (h x k hk).attempt_bind ?_ ?_
      · intro _ t hend
        obtain ⟨ht, hkeep, hspecial⟩ := hend
        refine (ih ht).mono ?_ fun _ _ h => h
        intro _ t' hend
        obtain ⟨ht', hkeep', hspecial'⟩ := hend
        refine ⟨ht', fun hk => hkeep' (hkeep hk), ?_⟩
        rintro ⟨y, hy, hs⟩
        rcases List.mem_cons.1 hy with rfl | hy
        · exact hkeep' (hspecial hs)
        · exact hspecial' ⟨y, hy, hs⟩
      · intro e t ht
        exact ends_throw ht

end Poller

end ChangeFeed
