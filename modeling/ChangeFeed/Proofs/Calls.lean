import ChangeFeed.Proofs.Observer

namespace ChangeFeed

open Act

variable {σ κ : Type}

structure Poller.Call where
  position : Nat
  events : List ChangeEvent
  deriving DecidableEq

def Consumer.noted (c : Consumer κ) (position : Nat) : Consumer (κ × List Poller.Call) where
  name := c.name
  receive events := do
    modify fun s => (s.1, s.2 ++ [⟨position, events⟩])
    Act.onFst (c.receive events)

def Consumer.notedFrom (i : Nat) (cs : List (Consumer κ)) : List (Consumer (κ × List Poller.Call)) :=
  (cs.zipIdx i).map fun c => c.1.noted c.2

theorem Consumer.notedFrom_cons (i : Nat) (c : Consumer κ) (cs : List (Consumer κ)) :
    notedFrom i (c :: cs) = c.noted i :: notedFrom (i + 1) cs := rfl

theorem Consumer.outcome_noted (c : Consumer κ) (i : Nat) (events : List ChangeEvent)
    (t : κ × List Poller.Call) : ((c.noted i).receive events).outcome t =
      (((c.receive events).outcome t.1).1,
        ((c.receive events).outcome t.1).2, t.2 ++ [⟨i, events⟩]) := by
  show (Act.onFst (c.receive events)).outcome (t.1, t.2 ++ [⟨i, events⟩]) = _
  rw [outcome, outcome, Act.onFst]
  cases c.receive events t.1 <;> rfl

theorem Consumer.adds_notedFrom (i : Nat) (cs : List (Consumer κ)) :
    List.Forall₂ Adds (notedFrom i cs) cs := by
  induction cs generalizing i with
  | nil => exact .nil
  | cons c cs ih =>
      refine .cons ⟨rfl, fun events t => ?_⟩ (ih (i + 1))
      exact erases_fst (c.receive events) (t.1, t.2 ++ [⟨i, events⟩])

namespace Poller

def noted (p : Poller κ) : Poller (κ × List Call) where
  models := p.models
  consumers := Consumer.notedFrom 0 p.consumers
  config := p.config

theorem erases_poll_noted (p : Poller κ) (S : LogStore σ) :
    Erases (fun t : σ × κ × List Call => (t.1, t.2.1)) (p.noted.poll S) (p.poll S) := by
  refine erases_poll_of_hand rfl rfl (fun b => ?_) S
  unfold hand
  by_cases h : b.events = []
  · rw [if_pos h, if_pos h]
    exact erases_pure _ _
  · rw [if_neg h, if_neg h]
    exact erases_dispatch p.config.policy b.events (Consumer.adds_notedFrom 0 p.consumers)

def callsFrom (i n : Nat) (events : List ChangeEvent) : List Call :=
  (List.range' i n).map (⟨·, events⟩)

section

variable (events : List ChangeEvent)

/-- The state that consumers leave who are called one after the other, however each of them ends. -/
def leave (cs : List (Consumer κ)) (k : κ) : κ :=
  cs.foldl (fun k c => ((c.receive events).outcome k).2) k

def endings : List (Consumer κ) → κ → List (String × Except Failure Unit)
  | [], _ => []
  | c :: cs, k =>
    (c.name, ((c.receive events).outcome k).1) :: endings cs ((c.receive events).outcome k).2

def AllSucceed (cs : List (Consumer κ)) (k : κ) : Prop := ∀ x ∈ endings events cs k, x.2 = .ok ()

end

section

variable {policy : FailurePolicy} {events : List ChangeEvent} {cs : List (Consumer κ)} {c : Consumer κ}

theorem dispatch_cons (t : κ) : dispatch policy events (c :: cs) t =
    match ((c.receive events).outcome t).1 with
    | .ok () => dispatch policy events cs ((c.receive events).outcome t).2
    | .error e =>
      match policy with
      | .abort => .error (.consumer c.name e) ((c.receive events).outcome t).2
      | .logAndContinue => (do
          return s!"{c.name}: {e.display}" :: (← dispatch .logAndContinue events cs) :
            Act κ (List String)) ((c.receive events).outcome t).2 := by
  rw [dispatch, attempt_bind_apply]
  cases ((c.receive events).outcome t).1 with
  | ok u => rfl
  | error e => cases policy <;> rfl

theorem allSucceed_cons {k : κ} : AllSucceed events (c :: cs) k ↔
    ((c.receive events).outcome k).1 = .ok () ∧
      AllSucceed events cs ((c.receive events).outcome k).2 := List.forall_mem_cons

theorem callsFrom_append_succ (calls : List Call) (i n : Nat) :
    (calls ++ [⟨i, events⟩]) ++ callsFrom (i + 1) n events = calls ++ callsFrom i (n + 1) events := by
  rw [List.append_assoc]
  rfl

theorem dispatch_succeeds (i : Nat) {t : κ × List Call} (h : AllSucceed events cs t.1) :
    dispatch policy events (Consumer.notedFrom i cs) t =
      .ok [] (leave events cs t.1, t.2 ++ callsFrom i cs.length events) := by
  induction cs generalizing i t with
  | nil => exact congrArg (EStateM.Result.ok []) (Prod.ext rfl (List.append_nil _).symm)
  | cons c cs ih =>
      obtain ⟨hc, hcs⟩ := allSucceed_cons.1 h
      rw [Consumer.notedFrom_cons, dispatch_cons, Consumer.outcome_noted, hc]
      refine (ih (i + 1) (t := (_, t.2 ++ [⟨i, events⟩])) hcs).trans ?_
      rw [callsFrom_append_succ]
      rfl

theorem allSucceed_of_healthy (h : ∀ c ∈ cs, c.Healthy) (k : κ) : AllSucceed events cs k := by
  induction cs generalizing k with
  | nil => exact nofun
  | cons c cs ih =>
      obtain ⟨hc, hcs⟩ := List.forall_mem_cons.1 h
      obtain ⟨k', hk⟩ := hc events k
      refine allSucceed_cons.2 ⟨?_, ih hcs _⟩
      rw [outcome, hk]

end

theorem dispatch_notedFrom {cs : List (Consumer κ)} (h : ∀ c ∈ cs, c.Healthy) (policy : FailurePolicy)
    (events : List ChangeEvent) (i : Nat) (t : κ × List Call) :
    Ends (dispatch policy events (Consumer.notedFrom i cs)) t
      (fun failures t' => failures = [] ∧ t'.2 = t.2 ++ callsFrom i cs.length events)
      fun _ _ => False := by
  rw [Ends, dispatch_succeeds i (allSucceed_of_healthy h t.1)]
  exact ⟨rfl, rfl⟩

theorem hand_noted {p : Poller κ} (h : ∀ c ∈ p.consumers, c.Healthy) (b : Batch) (t : κ × List Call) :
    Ends (p.noted.hand b) t
      (fun failures t' => failures = [] ∧ t'.2 = t.2 ++
        if b.events = [] then [] else callsFrom 0 p.consumers.length b.events)
      fun _ _ => False := by
  rw [hand]
  by_cases he : b.events = []
  · rw [if_pos he, if_pos he]
    exact ends_pure ⟨rfl, (List.append_nil _).symm⟩
  · rw [if_neg he, if_neg he]
    exact dispatch_notedFrom h p.config.policy b.events 0 t

end Poller

end ChangeFeed
