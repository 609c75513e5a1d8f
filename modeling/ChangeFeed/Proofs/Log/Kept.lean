import ChangeFeed.Poller
import ChangeFeed.Proofs.Ends

namespace ChangeFeed

namespace Act

variable {σ τ α β : Type} {inv : σ → Prop}

def Keeps (inv : σ → Prop) (a : Act σ α) : Prop := ∀ s, inv s → Ends a s (fun _ => inv) fun _ => inv

theorem keeps_pure (x : α) : Keeps inv (pure x : Act σ α) := fun _ hs => hs

theorem keeps_throw (e : Failure) : Keeps inv (throw e : Act σ α) := fun _ hs => hs

theorem keeps_get : Keeps inv (get : Act σ σ) := fun _ hs => hs

theorem keeps_modify {f : σ → σ} (h : ∀ s, inv s → inv (f s)) : Keeps inv (modify f : Act σ Unit) := h

theorem keeps_ofExcept (r : Except Failure α) : Keeps inv (ofExcept r) := by
  cases r with
  | ok x => exact keeps_pure x
  | error e => exact keeps_throw e

theorem Keeps.bind {a : Act σ α} {f : α → Act σ β} (ha : Keeps inv a) (hf : ∀ x, Keeps inv (f x)) :
    Keeps inv (a >>= f) := fun s hs => (ha s hs).bind fun x t ht => hf x t ht

theorem Keeps.outcome {a : Act σ α} (ha : Keeps inv a) {s : σ} (hs : inv s) :
    inv (a.outcome s).2 := by
  have h := ha s hs
  rw [Ends] at h
  rw [Act.outcome]
  cases hr : a s with
  | ok x t => simpa only [hr] using h
  | error e t => simpa only [hr] using h

theorem Keeps.attempt {a : Act σ α} (ha : Keeps inv a) : Keeps inv (attempt a) := by
  intro s hs
  have h := ha s hs
  rw [Ends] at h ⊢
  rw [Act.attempt]
  cases hr : a s with
  | ok x t => simpa only [hr] using h
  | error e t => simpa only [hr] using h

theorem Keeps.ignore {a : Act σ Unit} (ha : Keeps inv a) : Keeps inv (ignore a) := by
  intro s hs
  have h := ha s hs
  rw [Ends] at h ⊢
  rw [Act.ignore]
  cases hr : a s with
  | ok x t => simpa only [hr] using h
  | error e t => simpa only [hr] using h

theorem Keeps.onFst {a : Act σ α} (ha : Keeps inv a) :
    Keeps (fun s : σ × τ => inv s.1) (onFst a) := fun s hs =>
  (ha s.1 hs).onFst.mono (fun _ _ h => h.1) fun _ _ h => h.1

theorem Keeps.onSnd {a : Act σ α} (ha : Keeps inv a) :
    Keeps (fun s : τ × σ => inv s.2) (onSnd a) := fun s hs =>
  (ha s.2 hs).onSnd.mono (fun _ _ h => h.1) fun _ _ h => h.1

theorem keeps_onSnd (a : Act τ α) : Keeps (fun s : σ × τ => inv s.1) (onSnd a) := fun s hs =>
  (ends_any a s.2).onSnd.mono (fun _ _ h => (congrArg inv h.2).mpr hs) fun _ _ h =>
    (congrArg inv h.2).mpr hs

theorem keeps_onFst (a : Act τ α) : Keeps (fun s : τ × σ => inv s.2) (onFst a) := fun s hs =>
  (ends_any a s.1).onFst.mono (fun _ _ h => (congrArg inv h.2).mpr hs) fun _ _ h =>
    (congrArg inv h.2).mpr hs

theorem Keeps.mapM {f : α → Act σ β} {l : List α} (hf : ∀ x ∈ l, Keeps inv (f x)) :
    Keeps inv (l.mapM f) := by
  induction l with
  | nil => exact keeps_pure _
  | cons x l ih =>
      obtain ⟨hx, hl⟩ := List.forall_mem_cons.1 hf
      rw [List.mapM_cons]
      exact hx.bind fun y => (ih hl).bind fun ys => keeps_pure _

theorem Keeps.foldlM {f : β → α → Act σ β} {l : List α} (hf : ∀ y, ∀ x ∈ l, Keeps inv (f y x)) (y : β) :
    Keeps inv (l.foldlM f y) := by
  induction l generalizing y with
  | nil => exact keeps_pure _
  | cons x l ih =>
      rw [List.foldlM_cons]
      exact (hf y x (List.mem_cons_self ..)).bind
        (ih fun y x hx => hf y x (List.mem_cons_of_mem _ hx))

end Act

open Act

/-- What each call of a store keeps. Rows are deleted from the tables of the models only. -/
structure LogStore.Preserves {σ : Type} (S : LogStore σ) (models : List LogModel) (inv : σ → Prop) :
    Prop where
  start : Keeps inv S.start
  fetch : ∀ m after limit, Keeps inv (S.fetch m after limit)
  delete : ∀ m ∈ models, ∀ ids, Keeps inv (S.delete m ids)
  commit : Keeps inv S.commit
  rollback : Keeps inv S.rollback

variable {σ : Type} {inv : σ → Prop}

section

variable {fetch : FetchWindow σ} (hf : ∀ m after limit, Keeps inv (fetch m after limit))
include hf

theorem Window.fill_keeps (size : Nat) (w : Window) : Keeps inv (w.fill fetch size) :=
  (hf w.model w.lastSeen size).bind fun _ => keeps_ofExcept _

theorem Merge.start_keeps : Keeps (fun t : Merge × σ => inv t.2) (Merge.start fetch) := by
  refine keeps_get.bind fun t => ?_
  obtain ⟨m, s⟩ := t
  dsimp only
  split
  next => exact keeps_throw _
  next =>
    refine Keeps.bind (Keeps.onSnd (Keeps.mapM ?_)) fun ws => keeps_modify ?_
    · exact fun w _ => Window.fill_keeps hf _ _
    · exact fun t ht => ht

theorem Merge.next_keeps : Keeps (fun t : Merge × σ => inv t.2) (Merge.next fetch) := by
  have hmodify {f : Merge × σ → Merge × σ} (h : ∀ t, (f t).2 = t.2) :
      Keeps (fun t : Merge × σ => inv t.2) (modify f) :=
    keeps_modify fun t ht => (congrArg inv (h t)).mpr ht
  refine keeps_get.bind fun ⟨m, _⟩ => ?_
  dsimp only
  split
  next => exact keeps_throw _
  split
  next => exact keeps_pure _
  split
  next => exact Keeps.bind (hmodify fun _ => rfl) fun _ => keeps_pure _
  next i row hl =>
    refine Keeps.bind (hmodify fun _ => rfl) fun _ => ?_
    have hcurrent : Keeps (fun t : Merge × σ => inv t.2) (do
        modify fun t => ({ t.1 with current := some (i, row) }, t.2)
        return true) := Keeps.bind (hmodify fun _ => rfl) fun _ => keeps_pure _
    split
    next w hw =>
      split
      next =>
        refine Keeps.bind (Keeps.onSnd (Window.fill_keeps hf _ _)) fun w => ?_
        exact Keeps.bind (hmodify fun _ => rfl) fun _ => hcurrent
      next => exact hcurrent
    next => exact hcurrent

theorem Merge.foldRows_keeps {β : Type} (step : β → Delivery → Except Failure β) (n : Nat) (acc : β) :
    Keeps (fun t : Merge × σ => inv t.2) (Merge.foldRows fetch step n acc) := by
  induction n generalizing acc with
  | zero => exact keeps_pure _
  | succ n ih =>
      refine (Merge.next_keeps hf).bind fun more => ?_
      cases more with
      | true => exact keeps_get.bind fun ⟨m, _⟩ => (keeps_ofExcept _).bind fun acc => ih acc
      | false => exact keeps_pure _

end

theorem Merge.foldRows_good {β : Type} (fetch : FetchWindow σ)
    {step : β → Delivery → Except Failure β} {good : β → Prop}
    (h : ∀ acc d acc', step acc d = .ok acc' → good acc') (n : Nat) {acc : β} (hacc : good acc)
    (t : Merge × σ) : Ends (foldRows fetch step n acc) t (fun b _ => good b) fun _ _ => True := by
  induction n generalizing acc t with
  | zero => exact ends_pure hacc
  | succ n ih =>
      refine (ends_any (next fetch) t).bind fun more t _ => ?_
      cases more with
      | false => exact ends_pure hacc
      | true =>
          obtain ⟨m, s⟩ := t
          have hstep : Ends (Act.ofExcept (m.current? >>= step acc)) (m, s) (fun acc' _ => good acc')
              fun _ _ => True := by
            refine ends_ofExcept (fun acc' hacc' => ?_) fun _ _ => trivial
            obtain ⟨d, -, hd⟩ := bind_eq_ok.1 hacc'
            exact h acc d acc' hd
          exact ends_get_bind (hstep.bind fun acc' t hacc' => ih hacc' t)

namespace Poller

variable {κ : Type} {p : Poller κ} {S : LogStore σ}

theorem collect_ends_of_read {ok : Batch → σ → Prop} {err : Failure → σ → Prop} {s : σ}
    (h : Ends (Merge.start S.fetch >>= fun _ =>
        Merge.foldRows S.fetch (Batch.add p.models) p.config.batchSize {})
      (Merge.new p.models p.config.windowSize, s) (fun b t => ok b t.2) fun e t => err e t.2) :
    Ends (p.collect S) s ok err := by
  rw [Ends] at h ⊢
  rw [collect]
  generalize (Merge.start S.fetch >>= fun _ =>
    Merge.foldRows S.fetch (Batch.add p.models) p.config.batchSize {})
    (Merge.new p.models p.config.windowSize, s) = result at h ⊢
  cases result with
  | ok b t => exact h
  | error e t => exact h

theorem collect_keeps (hf : ∀ m after limit, Keeps inv (S.fetch m after limit)) :
    Keeps inv (p.collect S) := fun s hs =>
  collect_ends_of_read <| ((Merge.start_keeps hf).bind fun _ =>
    Merge.foldRows_keeps hf (Batch.add p.models) p.config.batchSize {})
    (Merge.new p.models p.config.windowSize, s) hs

variable (hS : S.Preserves p.models inv)
include hS

omit hS in
theorem remove_keeps {models : List LogModel} (hS : S.Preserves models inv) (b : Batch) (position : Nat)
    (ms : List LogModel) (hms : ∀ m ∈ ms, m ∈ models) : Keeps inv (remove S b position ms) := by
  induction ms generalizing position with
  | nil => exact keeps_pure _
  | cons m ms ih =>
      obtain ⟨hm, hms⟩ := List.forall_mem_cons.1 hms
      rw [remove]
      dsimp only
      split
      next =>
        refine (hS.delete m hm _).bind fun n => ?_
        split
        next => exact (keeps_throw _).bind fun _ => ih (position + 1) hms
        next => exact ih (position + 1) hms
      next => exact ih (position + 1) hms

theorem drain_keeps : Keeps (fun s : σ × κ => inv s.1) (p.drain S) := by
  refine (collect_keeps hS.fetch).onFst.bind fun batch => ?_
  have hremove := (remove_keeps hS batch 0 p.models fun _ hm => hm).onFst (τ := κ)
  dsimp only
  split
  next => exact (keeps_pure _).bind fun _ => hremove.bind fun _ => keeps_pure _
  next => exact (keeps_onSnd _).bind fun _ => hremove.bind fun _ => keeps_pure _

/-- A poll keeps what each call of its store keeps. -/
theorem poll_keeps : Keeps (fun s : σ × κ => inv s.1) (p.poll S) := by
  refine hS.start.onFst.bind fun _ => (drain_keeps hS).attempt.bind fun result => ?_
  cases result with
  | ok report =>
      refine Keeps.bind ?_ fun _ => keeps_pure _
      split
      next => exact hS.rollback.onFst
      next => exact hS.commit.onFst
  | error e => exact hS.rollback.onFst.ignore.bind fun _ => keeps_throw e

end Poller

end ChangeFeed
