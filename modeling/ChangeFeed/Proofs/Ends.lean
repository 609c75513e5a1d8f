import ChangeFeed.Act
import Mathlib.Data.List.Basic

namespace ChangeFeed

theorem bind_eq_ok {ε α β : Type} {x : Except ε α} {f : α → Except ε β} {y : β} :
    (x >>= f) = .ok y ↔ ∃ a, x = .ok a ∧ f a = .ok y := by
  cases x with
  | error e =>
      constructor
      · intro h
        cases h
      · rintro ⟨_, ⟨⟩, -⟩
  | ok a =>
      constructor
      · intro h
        exact ⟨a, rfl, h⟩
      · intro hend
        obtain ⟨_, ⟨⟩, h⟩ := hend
        exact h

theorem bind_eq_error {ε α β : Type} {x : Except ε α} {f : α → Except ε β} {e : ε} :
    (x >>= f) = .error e ↔ x = .error e ∨ ∃ a, x = .ok a ∧ f a = .error e := by
  cases x with
  | error e' =>
      constructor
      · intro h
        cases h
        exact .inl rfl
      · rintro (⟨⟨⟩⟩ | ⟨_, ⟨⟩, -⟩)
        rfl
  | ok a =>
      constructor
      · intro h
        exact .inr ⟨a, rfl, h⟩
      · rintro (⟨⟨⟩⟩ | ⟨_, ⟨⟩, h⟩)
        exact h

inductive Ending where
  | commit
  | rollback
  | drop
  deriving DecidableEq

namespace Act

variable {σ τ α β γ : Type}

/-- What holds after `a` has been run from `s`: `ok` of the result and the state if it succeeds, `err`
of the failure and the state if it fails. -/
def Ends (a : Act σ α) (s : σ) (ok : α → σ → Prop) (err : Failure → σ → Prop) : Prop :=
  match a s with
  | .ok x t => ok x t
  | .error e t => err e t

theorem bind_apply (a : Act σ α) (f : α → Act σ β) (s : σ) :
    (a >>= f) s = match a s with
      | .ok x t => f x t
      | .error e t => .error e t := by
  show EStateM.bind a f s = _
  unfold EStateM.bind
  cases a s <;> rfl

theorem mapM_cons_apply (f : α → Act σ β) (a : α) (as : List α) (s : σ) :
    (a :: as).mapM f s = match f a s with
      | .ok b t => (match as.mapM f t with
        | .ok bs u => .ok (b :: bs) u
        | .error e u => .error e u)
      | .error e t => .error e t := by
  rw [List.mapM_cons, bind_apply]
  cases f a s with
  | error e t => rfl
  | ok b t =>
      dsimp only
      rw [bind_apply]
      cases as.mapM f t <;> rfl

theorem attempt_bind_apply (a : Act σ α) (f : Except Failure α → Act σ β) (s : σ) :
    (attempt a >>= f) s = f (a.outcome s).1 (a.outcome s).2 := by
  rw [bind_apply, Act.attempt, outcome]
  cases a s <;> rfl

section

variable {a : Act σ α} {s : σ} {ok : α → σ → Prop} {err : Failure → σ → Prop}

theorem Ends.of_ok (h : Ends a s ok err) {x : α} {t : σ} (ha : a s = .ok x t) : ok x t := by
  simpa only [Ends, ha] using h

theorem Ends.of_error (h : Ends a s ok err) {e : Failure} {t : σ} (ha : a s = .error e t) :
    err e t := by
  simpa only [Ends, ha] using h

theorem Ends.exists_ok (h : Ends a s ok fun _ _ => False) : ∃ x t, a s = .ok x t ∧ ok x t := by
  cases ha : a s with
  | ok x t => exact ⟨x, t, rfl, h.of_ok ha⟩
  | error e t => exact (h.of_error ha).elim

theorem ends_self (a : Act σ α) (s : σ) :
    Ends a s (fun x t => a s = .ok x t) fun e t => a s = .error e t := by
  cases ha : a s with
  | ok x t => simp only [Ends, ha]
  | error e t => simp only [Ends, ha]

theorem ends_of_outcome {x : α} {t : σ} (h : a.outcome s = (.ok x, t)) (hok : ok x t) :
    Ends a s ok err := by
  rw [outcome] at h
  cases ha : a s with
  | ok y u =>
      rw [ha] at h
      cases h
      simpa only [Ends, ha] using hok
  | error e u =>
      rw [ha] at h
      cases h

theorem Ends.mono {ok' : α → σ → Prop} {err' : Failure → σ → Prop} (h : Ends a s ok err)
    (hok : ∀ x t, ok x t → ok' x t) (herr : ∀ e t, err e t → err' e t) : Ends a s ok' err' := by
  cases ha : a s with
  | ok x t => simpa only [Ends, ha] using hok x t (h.of_ok ha)
  | error e t => simpa only [Ends, ha] using herr e t (h.of_error ha)

theorem ends_any (a : Act σ α) (s : σ) : Ends a s (fun _ _ => True) fun _ _ => True :=
  (ends_self a s).mono (fun _ _ _ => trivial) fun _ _ _ => trivial

theorem Ends.and {ok' : α → σ → Prop} {err' : Failure → σ → Prop} (h : Ends a s ok err)
    (h' : Ends a s ok' err') :
    Ends a s (fun x t => ok x t ∧ ok' x t) fun e t => err e t ∧ err' e t := by
  cases ha : a s with
  | ok x t => simpa only [Ends, ha] using ⟨h.of_ok ha, h'.of_ok ha⟩
  | error e t => simpa only [Ends, ha] using ⟨h.of_error ha, h'.of_error ha⟩

theorem Ends.seq {f : α → Act σ β} {ok' : β → σ → Prop} {err' : Failure → σ → Prop}
    (h : Ends a s ok err) (herr : ∀ e t, err e t → err' e t)
    (hf : ∀ x t, ok x t → Ends (f x) t ok' err') : Ends (a >>= f) s ok' err' := by
  rw [Ends]
  rw [bind_apply]
  cases ha : a s with
  | ok x t => exact hf x t (h.of_ok ha)
  | error e t => exact herr e t (h.of_error ha)

theorem Ends.bind {f : α → Act σ β} {ok' : β → σ → Prop} (h : Ends a s ok err)
    (hf : ∀ x t, ok x t → Ends (f x) t ok' err) : Ends (a >>= f) s ok' err :=
  h.seq (fun _ _ he => he) hf

theorem ends_pure {x : α} (h : ok x s) : Ends (pure x : Act σ α) s ok err := h

theorem ends_throw {e : Failure} (h : err e s) : Ends (throw e : Act σ α) s ok err := h

theorem ends_get_bind {f : σ → Act σ α} (h : Ends (f s) s ok err) :
    Ends ((get : Act σ σ) >>= f) s ok err := h

theorem outcome_get_bind (f : σ → Act σ α) (s : σ) : outcome (get >>= f) s = outcome (f s) s := rfl

theorem outcome_ofExcept (r : Except Failure α) (s : σ) : outcome (ofExcept r) s = (r, s) := by
  cases r <;> rfl

theorem ends_modify {f : σ → σ} {ok : Unit → σ → Prop} (h : ok () (f s)) :
    Ends (modify f : Act σ Unit) s ok err := h

theorem ends_modify_bind {f : σ → σ} {a : Unit → Act σ α} (h : Ends (a ()) (f s) ok err) :
    Ends ((modify f : Act σ Unit) >>= a) s ok err := h

theorem ends_ofExcept {r : Except Failure α} (hok : ∀ x, r = .ok x → ok x s)
    (herr : ∀ e, r = .error e → err e s) : Ends (ofExcept r) s ok err := by
  cases r with
  | ok x => exact hok x rfl
  | error e => exact herr e rfl

theorem Ends.attempt_bind {f : Except Failure α → Act σ β} {ok' : β → σ → Prop}
    {err' : Failure → σ → Prop} (h : Ends a s ok err)
    (hok : ∀ x t, ok x t → Ends (f (.ok x)) t ok' err')
    (herr : ∀ e t, err e t → Ends (f (.error e)) t ok' err') :
    Ends (attempt a >>= f) s ok' err' := by
  rw [Ends, bind_apply, Act.attempt]
  cases ha : a s with
  | ok x t => exact hok x t (h.of_ok ha)
  | error e t => exact herr e t (h.of_error ha)

theorem Ends.ignore_bind {a : Act σ Unit} {f : Unit → Act σ β} {inv : σ → Prop}
    {ok' : β → σ → Prop} {err' : Failure → σ → Prop}
    (h : Ends a s (fun _ t => inv t) fun _ t => inv t)
    (hf : ∀ t, inv t → Ends (f ()) t ok' err') : Ends (ignore a >>= f) s ok' err' := by
  rw [Ends, bind_apply, Act.ignore]
  cases ha : a s with
  | ok x t => exact hf t (h.of_ok ha)
  | error e t => exact hf t (h.of_error ha)

end

section

variable {s : σ × τ} {err : Failure → σ → Prop}

theorem onSnd_bind (a : Act τ α) (f : α → Act τ β) :
    (onSnd (a >>= f) : Act (σ × τ) β) = onSnd a >>= fun x => onSnd (f x) := by
  funext s
  rw [bind_apply, onSnd, bind_apply, onSnd]
  cases a s.2 <;> rfl

theorem onSnd_get_bind (f : τ → Act τ α) :
    (onSnd (get >>= f) : Act (σ × τ) α) = get >>= fun s => onSnd (f s.2) := rfl

theorem onSnd_mapM (f : α → Act τ β) (l : List α) :
    (onSnd (l.mapM f) : Act (σ × τ) (List β)) = l.mapM fun x => onSnd (f x) := by
  induction l with
  | nil => rfl
  | cons x l ih =>
      rw [List.mapM_cons, List.mapM_cons, onSnd_bind]
      refine congrArg (onSnd (f x) >>= ·) (funext fun y => ?_)
      rw [onSnd_bind, ih]
      rfl

theorem Ends.onFst {a : Act σ α} {ok : α → σ → Prop} (h : Ends a s.1 ok err) :
    Ends (onFst a) s (fun x t => ok x t.1 ∧ t.2 = s.2) fun e t => err e t.1 ∧ t.2 = s.2 := by
  rw [Ends, Act.onFst]
  cases ha : a s.1 with
  | ok x t => exact ⟨h.of_ok ha, rfl⟩
  | error e t => exact ⟨h.of_error ha, rfl⟩

theorem Ends.onSnd {a : Act τ α} {ok : α → τ → Prop} {err : Failure → τ → Prop}
    (h : Ends a s.2 ok err) :
    Ends (onSnd a) s (fun x t => ok x t.2 ∧ t.1 = s.1) fun e t => err e t.2 ∧ t.1 = s.1 := by
  rw [Ends, Act.onSnd]
  cases ha : a s.2 with
  | ok x t => exact ⟨h.of_ok ha, rfl⟩
  | error e t => exact ⟨h.of_error ha, rfl⟩

end

section

variable {inv : σ → Prop} {err : Failure → σ → Prop}

theorem Ends.mapM {f : α → Act σ β} {h : β → γ} {g : α → γ} {good : β → Prop} {l : List α}
    (hf : ∀ x ∈ l, ∀ s, inv s → Ends (f x) s (fun y t => (h y = g x ∧ good y) ∧ inv t) err)
    {s : σ} (hs : inv s) :
    Ends (l.mapM f) s (fun ys t => (ys.map h = l.map g ∧ ∀ y ∈ ys, good y) ∧ inv t) err := by
  induction l generalizing s with
  | nil => exact ⟨⟨rfl, by simp⟩, hs⟩
  | cons x l ih =>
      obtain ⟨hx, hl⟩ := List.forall_mem_cons.1 hf
      rw [List.mapM_cons]
      refine (hx s hs).bind ?_
      intro y t hend
      obtain ⟨⟨hy, hgy⟩, ht⟩ := hend
      refine (ih hl ht).bind ?_
      intro ys t' hend
      obtain ⟨⟨hys, hg⟩, ht'⟩ := hend
      exact ends_pure ⟨⟨by simp [hy, hys], List.forall_mem_cons.2 ⟨hgy, hg⟩⟩, ht'⟩

end

end Act

end ChangeFeed
