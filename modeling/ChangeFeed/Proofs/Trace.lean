import ChangeFeed.Fault
import ChangeFeed.Proofs.Alike

namespace ChangeFeed

open Act

variable {σ π ι α β : Type}

def FaultPoint.IsWork (p : FaultPoint) : Prop :=
  p ∈ [sessionGet, sessionGetBatch, indexFind, indexUpdate, indexDelete]

instance (p : FaultPoint) : Decidable p.IsWork := inferInstanceAs (Decidable (p ∈ _))

theorem FaultPoint.IsWork.ne {p : FaultPoint} (h : p.IsWork) : p ≠ .sessionStart ∧ p ≠ .sessionClose := by
  cases p <;> simp_all [FaultPoint.IsWork]

structure AdapterCall where
  point : FaultPoint
  failure : Option Failure
  deriving DecidableEq

namespace AdapterCall

/-- The first failure of a list of calls. How a session was closed does not matter. -/
def firstFailure (cs : List AdapterCall) : Option Failure :=
  (cs.filter (·.point ≠ .sessionClose)).findSome? (·.failure)

def Clean (cs : List AdapterCall) : Prop := ∀ c ∈ cs, c.point.IsWork ∧ c.failure = none

def Inner (cs : List AdapterCall) : Prop :=
  ∀ c ∈ cs, c.point ≠ .sessionStart ∧ c.point ≠ .sessionClose

/-- A session that is opened is closed once, after all other calls. -/
inductive InSession : List AdapterCall → Prop
  | idle : InSession []
  | refused (e : Failure) : InSession [⟨.sessionStart, some e⟩]
  | closed {inner : List AdapterCall} (h : Inner inner) (failure : Option Failure) :
      InSession (⟨.sessionStart, none⟩ :: inner ++ [⟨.sessionClose, failure⟩])

/-- Calls inside a session, the first failure of which is `failure`. -/
structure Stopped (cs : List AdapterCall) (failure : Option Failure) : Prop where
  inner : Inner cs
  first : cs.findSome? (·.failure) = failure

variable {cs cs' : List AdapterCall} {c : AdapterCall} {r : Option Failure}

theorem inner_singleton {p : FaultPoint} (hp : p ≠ .sessionStart ∧ p ≠ .sessionClose) :
    Inner [⟨p, r⟩] := fun _ hc => List.mem_singleton.1 hc ▸ hp

theorem stopped_singleton {p : FaultPoint} (hp : p ≠ .sessionStart ∧ p ≠ .sessionClose)
    (r : Option Failure) : Stopped [⟨p, r⟩] r := by
  refine ⟨inner_singleton hp, ?_⟩
  cases r <;> rfl

theorem Clean.append (h : Clean cs) (h' : Clean cs') : Clean (cs ++ cs') := fun c hc =>
  (List.mem_append.1 hc).elim (h c) (h' c)

theorem Clean.stopped (h : Clean cs) : Stopped cs none where
  inner c hc := (h c hc).1.ne
  first := List.findSome?_eq_none_iff.2 fun c hc => (h c hc).2

theorem Stopped.append (h : Stopped cs none) (h' : Stopped cs' r) : Stopped (cs ++ cs') r where
  inner c hc := (List.mem_append.1 hc).elim (h.inner c) (h'.inner c)
  first := by rw [List.findSome?_append, h.first, h'.first, Option.none_or]

theorem stopped_cons {e : Failure} (hc : c.point ≠ .sessionStart ∧ c.point ≠ .sessionClose)
    (he : c.failure = some e) (h : Inner cs) : Stopped (c :: cs) (some e) where
  inner := List.forall_mem_cons.2 ⟨hc, h⟩
  first := by rw [List.findSome?_cons, he]

theorem Stopped.firstFailure_session (h : Stopped cs r) (f : Option Failure) :
    firstFailure (⟨.sessionStart, none⟩ :: cs ++ [⟨.sessionClose, f⟩]) = r := by
  have hcs : cs.filter (·.point ≠ .sessionClose) = cs :=
    List.filter_eq_self.2 fun c hc => decide_eq_true (h.inner c hc).2
  rw [firstFailure, List.filter_append, List.filter_cons_of_pos rfl, hcs]
  simp [h.first]

end AdapterCall

namespace Act

open AdapterCall

def noted (p : FaultPoint) (a : Act σ α) : Act (σ × List AdapterCall) α := fun t =>
  match a t.1 with
  | .ok x s => .ok x (s, t.2 ++ [⟨p, none⟩])
  | .error e s => .error e (s, t.2 ++ [⟨p, some e⟩])

/-- The action stops at the first call that fails. -/
def Stops (a : Act (σ × List AdapterCall) α) : Prop :=
  ∀ t, Ends a t (fun _ t' => ∃ cs, t'.2 = t.2 ++ cs ∧ Clean cs)
    fun e t' => ∃ cs c, t'.2 = t.2 ++ (cs ++ [c]) ∧ Clean cs ∧ c.point.IsWork ∧ c.failure = some e

theorem erases_noted (p : FaultPoint) (a : Act σ α) : Erases Prod.fst (noted p a) a := by
  intro t
  rw [outcome, outcome, noted]
  cases a t.1 <;> rfl

theorem noted_ends (p : FaultPoint) (a : Act σ α) (t : σ × List AdapterCall) :
    Ends (noted p a) t (fun _ t' => t'.2 = t.2 ++ [⟨p, none⟩])
      fun e t' => t'.2 = t.2 ++ [⟨p, some e⟩] := by
  rw [Ends, noted]
  cases a t.1 <;> rfl

theorem stops_noted {p : FaultPoint} (hp : p.IsWork) (a : Act σ α) : Stops (noted p a) := by
  intro t
  rw [Ends, noted]
  cases a t.1 with
  | ok x s => exact ⟨_, rfl, fun c hc => List.mem_singleton.1 hc ▸ ⟨hp, rfl⟩⟩
  | error e s => exact ⟨[], _, rfl, List.forall_mem_nil _, hp, rfl⟩

theorem Stops.bind {a : Act (σ × List AdapterCall) α} {f : α → Act (σ × List AdapterCall) β}
    (h : Stops a) (hf : ∀ x, Stops (f x)) : Stops (a >>= f) := by
  refine fun t => (h t).seq (fun _ _ h => h) ?_
  rintro x t' ⟨cs, ht', hclean⟩
  refine (hf x t').mono ?_ ?_
  · rintro y t'' ⟨cs', ht'', hclean'⟩
    exact ⟨cs ++ cs', by rw [ht'', ht', List.append_assoc], hclean.append hclean'⟩
  · rintro e t'' ⟨cs', c, ht'', hclean', hc⟩
    exact ⟨cs ++ cs', c, by simp [ht'', ht'], hclean.append hclean', hc⟩

theorem congruence_stops : Act.Congruence (Prod.fst : σ × List AdapterCall → σ) fun a' _ => Stops a' where
  pure _ t := ⟨[], (List.append_nil t.2).symm, List.forall_mem_nil _⟩
  bind h hf := h.bind hf
  get_bind h t := h t t

end Act

namespace Updater

def noted (u : Updater σ σ) : Updater (σ × List AdapterCall) (σ × List AdapterCall) where
  containment := u.containment
  provider :=
    { start := Act.noted .sessionStart u.provider.start
      get := fun key => Act.noted .sessionGet (u.provider.get key)
      getBatch := fun root ids => Act.noted .sessionGetBatch (u.provider.getBatch root ids)
      close := Act.noted .sessionClose u.provider.close }
  index :=
    { start := Act.noted .indexStart u.index.start
      find := fun q => Act.noted .indexFind (u.index.find q)
      add := fun d => Act.noted .indexAdd (u.index.add d)
      update := fun d => Act.noted .indexUpdate (u.index.update d)
      delete := fun key => Act.noted .indexDelete (u.index.delete key)
      commit := Act.noted .indexCommit u.index.commit
      rollback := Act.noted .indexRollback u.index.rollback
      abandon := fun t => (u.index.abandon t.1, t.2)
      bound := fun t => u.index.bound t.1 }
  pageSize := u.pageSize

/-- The calls that are made for a batch, those of the provider and those of the index in one list. -/
def calls (u : Updater π ι) (events : List ChangeEvent) (s : π × ι) : List AdapterCall :=
  ((u.joint.noted.batch events).outcome (s, [])).2.2

section

open AdapterCall

variable (u : Updater σ σ)

theorem noted_alike : u.noted.AlikeThroughout u Prod.fst fun a' a => Erases Prod.fst a' a where
  containment := rfl
  pageSize := rfl
  get _ := erases_noted _ _
  getBatch _ _ := erases_noted _ _
  find _ _ := erases_noted _ _
  update _ := erases_noted _ _
  delete _ := erases_noted _ _
  bound _ := rfl
  openSession := erases_noted _ _
  closeSession := erases_noted _ _
  start := erases_noted _ _
  commit := erases_noted _ _
  rollback := erases_noted _ _

theorem erases_batch (events : List ChangeEvent) :
    Erases Prod.fst (u.noted.batch events) (u.batch events) :=
  u.noted_alike.batch (recovers_erases Prod.fst) events

theorem noted_stops : u.noted.Alike u Prod.fst fun a' _ => Stops a' where
  containment := rfl
  pageSize := rfl
  get _ := stops_noted (by decide) _
  getBatch _ _ := stops_noted (by decide) _
  find _ _ := stops_noted (by decide) _
  update _ := stops_noted (by decide) _
  delete _ := stops_noted (by decide) _
  bound _ := rfl

theorem stops_foldlM (events : List ChangeEvent) (o : BatchOutcome) :
    Stops (events.foldlM u.noted.applyEvent o) :=
  congruence_stops.foldlM (f := u.applyEvent) (u.noted_stops.applyEvent congruence_stops) events o

theorem transact_stops (events : List ChangeEvent) (t : σ × List AdapterCall) :
    Ends (u.noted.transact events) t
      (fun _ t' => ∃ cs, t'.2 = t.2 ++ cs ∧ Stopped cs none)
      fun e t' => ∃ cs, t'.2 = t.2 ++ cs ∧ Stopped cs (some e) := by
  have hstart (r : Option Failure) : Stopped [⟨.indexStart, r⟩] r := stopped_singleton (by decide) r
  have hcommit (r : Option Failure) : Stopped [⟨.indexCommit, r⟩] r := stopped_singleton (by decide) r
  rw [transact]
  refine (noted_ends .indexStart _ t).seq (fun e t₁ ht₁ => ⟨_, ht₁, hstart (some e)⟩) ?_
  intro _ t₁ ht₁
  refine (u.stops_foldlM events {} t₁).attempt_bind ?_ ?_
  · rintro o t₂ ⟨cs, ht₂, hclean⟩
    have hends (r : Option Failure) (t₃ : σ × List AdapterCall)
        (ht₃ : t₃.2 = t₂.2 ++ [⟨.indexCommit, r⟩]) : ∃ cs, t₃.2 = t.2 ++ cs ∧ Stopped cs r := by
      refine ⟨_, ?_, (hstart none).append (hclean.stopped.append (hcommit r))⟩
      simp [ht₃, ht₂, ht₁]
    refine (noted_ends .indexCommit _ t₂).seq (fun e => hends (some e)) fun _ t₃ ht₃ => ?_
    exact ends_pure (hends none t₃ ht₃)
  · rintro e t₂ ⟨cs, c, ht₂, hclean, hwork, hc⟩
    have hends (r : Option Failure) (t₃ : σ × List AdapterCall)
        (ht₃ : t₃.2 = t₂.2 ++ [⟨.indexRollback, r⟩]) :
        ∃ cs, t₃.2 = t.2 ++ cs ∧ Stopped cs (some e) := by
      have hrollback : Inner [⟨.indexRollback, r⟩] := inner_singleton (by decide)
      refine ⟨_, ?_, (hstart none).append (hclean.stopped.append (stopped_cons hwork.ne hc hrollback))⟩
      simp [ht₃, ht₂, ht₁]
    have hrollback : Ends u.noted.index.rollback t₂
        (fun _ t₃ => ∃ cs, t₃.2 = t.2 ++ cs ∧ Stopped cs (some e))
        fun _ t₃ => ∃ cs, t₃.2 = t.2 ++ cs ∧ Stopped cs (some e) :=
      (noted_ends .indexRollback _ t₂).mono (fun _ => hends none) fun e => hends (some e)
    exact hrollback.ignore_bind fun t₃ ht₃ => ends_throw ht₃

/-- A batch fails if and only if a call for it fails, and with the first failure. The session that was
opened for it is closed. -/
theorem batch_stops (events : List ChangeEvent) (s : σ) :
    Ends (u.noted.batch events) (s, [])
      (fun _ t => InSession t.2 ∧ firstFailure t.2 = none)
      fun e t => InSession t.2 ∧ firstFailure t.2 = some e := by
  rw [batch]
  split
  next => exact ends_pure ⟨.idle, rfl⟩
  next =>
    refine (noted_ends .sessionStart _ (s, [])).seq ?_ ?_
    · intro e t ht
      rw [ht]
      exact ⟨.refused e, rfl⟩
    intro _ t₁ ht₁
    have hclose {cs : List AdapterCall} {r : Option Failure} (hcs : Stopped cs r)
        {t₂ : σ × List AdapterCall} (ht₂ : t₂.2 = t₁.2 ++ cs) :
        Ends u.noted.provider.close t₂ (fun _ t => InSession t.2 ∧ firstFailure t.2 = r)
          fun _ t => InSession t.2 ∧ firstFailure t.2 = r := by
      have hends (f : Option Failure) (t : σ × List AdapterCall)
          (ht : t.2 = t₂.2 ++ [⟨.sessionClose, f⟩]) : InSession t.2 ∧ firstFailure t.2 = r := by
        rw [ht, ht₂, ht₁]
        exact ⟨.closed hcs.inner f, hcs.firstFailure_session f⟩
      exact (noted_ends .sessionClose _ t₂).mono (fun _ => hends none) fun e => hends (some e)
    refine (u.transact_stops events t₁).attempt_bind ?_ ?_
    · rintro o t₂ ⟨cs, ht₂, hcs⟩
      exact (hclose hcs ht₂).ignore_bind fun t ht => ends_pure ht
    · rintro e t₂ ⟨cs, ht₂, hcs⟩
      exact (hclose hcs ht₂).ignore_bind fun t ht => ends_throw ht

end

open AdapterCall in
theorem calls_spec (u : Updater π ι) (events : List ChangeEvent) (s : π × ι) :
    InSession (u.calls events s) ∧
      ∀ e, (∃ t, u.run events s = .error e t) ↔ firstFailure (u.calls events s) = some e := by
  have hstops := u.joint.batch_stops events s
  rw [run, calls, outcome]
  obtain ⟨o, t, ht, hrun⟩ | ⟨e, t, ht, hrun⟩ := (u.joint.erases_batch events).cases (s, [])
  · obtain ⟨hsession, hnone⟩ := hstops.of_ok ht
    rw [ht, hrun]
    exact ⟨hsession, fun e => by simp [hnone]⟩
  · obtain ⟨hsession, hsome⟩ := hstops.of_error ht
    rw [ht, hrun]
    exact ⟨hsession, fun e' => by simp [hsome]⟩

end Updater

end ChangeFeed
