import ChangeFeed.Proofs.Dispatch
import Mathlib.Data.List.Forall2

namespace ChangeFeed

open Act

variable {σ τ κ α β : Type}

namespace Act

/-- The action on the larger state ends as the other one does, once a part is forgotten. -/
def Erases (forget : τ → σ) (a' : Act τ α) (a : Act σ α) : Prop :=
  ∀ t, a.outcome (forget t) = ((a'.outcome t).1, forget (a'.outcome t).2)

variable {forget : τ → σ} {a' : Act τ α} {a : Act σ α}

theorem Erases.cases (h : Erases forget a' a) (t : τ) :
    (∃ x t', a' t = .ok x t' ∧ a (forget t) = .ok x (forget t')) ∨
      ∃ e t', a' t = .error e t' ∧ a (forget t) = .error e (forget t') := by
  have ht := h t
  rw [outcome, outcome] at ht
  cases ha' : a' t with
  | ok x t' =>
      refine .inl ⟨x, t', rfl, ?_⟩
      cases ha : a (forget t) with
      | ok y s =>
          rw [ha, ha'] at ht
          cases ht
          rfl
      | error e s =>
          rw [ha, ha'] at ht
          cases ht
  | error e t' =>
      refine .inr ⟨e, t', rfl, ?_⟩
      cases ha : a (forget t) with
      | ok y s =>
          rw [ha, ha'] at ht
          cases ht
      | error e' s =>
          rw [ha, ha'] at ht
          cases ht
          rfl

theorem Erases.bind {f' : α → Act τ β} {f : α → Act σ β} (h : Erases forget a' a)
    (hf : ∀ x, Erases forget (f' x) (f x)) : Erases forget (a' >>= f') (a >>= f) := by
  intro t
  rw [outcome, outcome, bind_apply, bind_apply]
  obtain ⟨x, t', h', h⟩ | ⟨e, t', h', h⟩ := h.cases t
  · rw [h', h]
    exact hf x t'
  · rw [h', h]

theorem erases_pure (forget : τ → σ) (x : α) : Erases forget (pure x) (pure x) := fun _ => rfl

theorem erases_throw (forget : τ → σ) (e : Failure) :
    Erases forget (throw e : Act τ α) (throw e) := fun _ => rfl

theorem Erases.attempt (h : Erases forget a' a) : Erases forget (attempt a') (attempt a) := by
  intro t
  rw [outcome, outcome, Act.attempt, Act.attempt]
  obtain ⟨x, t', h', h⟩ | ⟨e, t', h', h⟩ := h.cases t
  · rw [h', h]
  · rw [h', h]

theorem Erases.ignore {a' : Act τ Unit} {a : Act σ Unit} (h : Erases forget a' a) :
    Erases forget (ignore a') (ignore a) := by
  intro t
  rw [outcome, outcome, Act.ignore, Act.ignore]
  obtain ⟨x, t', h', h⟩ | ⟨e, t', h', h⟩ := h.cases t
  · rw [h', h]
  · rw [h', h]

theorem Erases.onSnd (h : Erases forget a' a) :
    Erases (fun t : κ × τ => (t.1, forget t.2)) (onSnd a') (onSnd a) := by
  intro t
  rw [outcome, outcome, Act.onSnd, Act.onSnd]
  obtain ⟨x, t', h', h⟩ | ⟨e, t', h', h⟩ := h.cases t.2
  · rw [h', h]
  · rw [h', h]

theorem erases_onFst (a : Act σ α) (forget : κ → τ) :
    Erases (fun t : σ × κ => (t.1, forget t.2)) (onFst a) (onFst a) := by
  intro t
  rw [outcome, outcome, Act.onFst, Act.onFst]
  cases a t.1 <;> rfl

theorem erases_fst (a : Act σ α) : Erases (Prod.fst : σ × κ → σ) (onFst a) a := by
  intro t
  rw [outcome, outcome, Act.onFst]
  cases a t.1 <;> rfl

end Act

def Consumer.beside (c : Consumer κ) : Consumer (κ × τ) where
  name := c.name
  receive events := Act.onFst (c.receive events)

/-- The consumer on the larger state is called and ends as the other one, whatever it adds. -/
structure Consumer.Adds (c' : Consumer (κ × τ)) (c : Consumer κ) : Prop where
  name : c'.name = c.name
  receive : ∀ events, Erases Prod.fst (c'.receive events) (c.receive events)

theorem Consumer.adds_beside (cs : List (Consumer κ)) :
    List.Forall₂ (Adds (τ := τ)) (cs.map (·.beside)) cs := by
  refine List.forall₂_map_left_iff.2 (List.forall₂_same.2 fun c _ => ?_)
  exact ⟨rfl, fun events => erases_fst (c.receive events)⟩

def observer : Consumer (κ × List (List ChangeEvent)) where
  name := "observer"
  receive events := modify fun s => (s.1, s.2 ++ [events])

def Poller.observed (p : Poller κ) : Poller (κ × List (List ChangeEvent)) where
  models := p.models
  consumers := observer :: p.consumers.map (·.beside)
  config := p.config

def Batch.handed (b : Batch) : List (List ChangeEvent) := if b.events = [] then [] else [b.events]

namespace Poller

theorem erases_dispatch (policy : FailurePolicy) (events : List ChangeEvent)
    {cs' : List (Consumer (κ × τ))} {cs : List (Consumer κ)} (h : List.Forall₂ Consumer.Adds cs' cs) :
    Erases (Prod.fst : κ × τ → κ) (dispatch policy events cs') (dispatch policy events cs) := by
  induction h with
  | nil => exact erases_pure _ _
  | cons hc _ ih =>
      rw [dispatch, dispatch, hc.name]
      refine (hc.receive events).attempt.bind ?_
      rintro (e | _)
      · cases policy with
        | abort => exact erases_throw _ _
        | logAndContinue => exact ih.bind fun failures => erases_pure _ _
      · exact ih

theorem erases_hand (p : Poller κ) (b : Batch) : Erases Prod.fst (p.observed.hand b) (p.hand b) := by
  intro t
  rw [hand, hand]
  by_cases h : b.events = []
  · rw [if_pos h, if_pos h]
    rfl
  rw [if_neg h, if_neg h]
  exact erases_dispatch p.config.policy b.events (Consumer.adds_beside p.consumers)
    (t.1, t.2 ++ [b.events])

theorem erases_poll_of_hand {p : Poller κ} {p' : Poller (κ × τ)} (hmodels : p'.models = p.models)
    (hconfig : p'.config = p.config) (hhand : ∀ b, Erases Prod.fst (p'.hand b) (p.hand b))
    (S : LogStore σ) : Erases (fun t : σ × κ × τ => (t.1, t.2.1)) (p'.poll S) (p.poll S) := by
  have hcollect : p'.collect S = p.collect S := by
    unfold collect
    rw [hmodels, hconfig]
  have hdrain : Erases (fun t : σ × κ × τ => (t.1, t.2.1)) (p'.drain S) (p.drain S) := by
    rw [drain_eq, drain_eq, hcollect, hmodels]
    refine (erases_onFst (p.collect S) Prod.fst).bind fun b => ?_
    refine (hhand b).onSnd.bind fun failures => ?_
    exact (erases_onFst (remove S b 0 p.models) Prod.fst).bind fun _ => erases_pure _ _
  rw [poll, poll]
  refine (erases_onFst S.start Prod.fst).bind fun _ => ?_
  refine hdrain.attempt.bind ?_
  rintro (e | report)
  · exact (erases_onFst S.rollback Prod.fst).ignore.bind fun _ => erases_throw _ _
  · exact (erases_onFst _ Prod.fst).bind fun _ => erases_pure _ _

/-- A poll ends as it ends without the observer. -/
theorem erases_poll (p : Poller κ) (S : LogStore σ) :
    Erases (fun t : σ × κ × List (List ChangeEvent) => (t.1, t.2.1)) (p.observed.poll S) (p.poll S) :=
  erases_poll_of_hand rfl rfl (erases_hand p) S

theorem hand_observed_ends (p : Poller κ) (b : Batch) (k : κ) (seen : List (List ChangeEvent)) :
    Ends (p.observed.hand b) (k, seen) (fun _ t => t.2 = seen ++ b.handed)
      fun _ t => t.2 = seen ++ b.handed := by
  rw [hand, Batch.handed]
  by_cases h : b.events = []
  · rw [if_pos h, if_pos h]
    exact ends_pure (List.append_nil _).symm
  rw [if_neg h, if_neg h]
  have hrun : dispatch p.observed.config.policy b.events p.observed.consumers (k, seen) =
      dispatch p.config.policy b.events (p.consumers.map (·.beside)) (k, seen ++ [b.events]) := rfl
  have hkeeps : Ends (dispatch p.config.policy b.events (p.consumers.map (·.beside)))
      (k, seen ++ [b.events]) (fun _ t => t.2 = seen ++ [b.events])
      fun _ t => True ∧ t.2 = seen ++ [b.events] := by
    refine dispatch_keeps ?_ rfl
    intro c hc t ht
    obtain ⟨c, -, rfl⟩ := List.mem_map.1 hc
    refine ((ends_self (c.receive b.events) t.1).onFst).mono ?_ ?_
    · intro _ t' hend
      obtain ⟨-, ht'⟩ := hend
      exact ht'.trans ht
    · intro _ t' hend
      obtain ⟨-, ht'⟩ := hend
      exact ⟨trivial, ht'.trans ht⟩
  rw [Ends, hrun]
  exact hkeeps.mono (fun _ _ h => h) fun _ _ h => h.2

theorem hand_observed_healthy {p : Poller κ} (h : ∀ c ∈ p.consumers, c.Healthy) (b : Batch)
    (t : κ × List (List ChangeEvent)) :
    Ends (p.observed.hand b) t (fun _ _ => True) fun _ _ => False := by
  rw [hand]
  by_cases he : b.events = []
  · rw [if_pos he]
    exact ends_pure trivial
  rw [if_neg he]
  have hkeeps : Ends (dispatch p.observed.config.policy b.events p.observed.consumers) t
      (fun _ _ => True) fun _ _ => False ∧ True := by
    refine dispatch_keeps ?_ trivial
    intro c hc t _
    rcases List.mem_cons.1 hc with rfl | hc
    · exact ends_modify trivial
    · obtain ⟨d, hd, rfl⟩ := List.mem_map.1 hc
      exact ((h d hd).ends b.events t.1).onFst.mono (fun _ _ _ => trivial) fun _ _ h => h.1.elim
  exact hkeeps.mono (fun _ _ h => h) fun _ _ h => h.1

end Poller

end ChangeFeed
