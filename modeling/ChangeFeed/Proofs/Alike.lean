import ChangeFeed.Proofs.Declared
import ChangeFeed.Proofs.Observer
import ChangeFeed.Updater

namespace ChangeFeed

open Act

variable {σ τ α β : Type} {forget : τ → σ} {R : {α : Type} → Act τ α → Act σ α → Prop}

/-- A relation between actions on two states that programs keep if their calls do. -/
structure Act.Congruence (forget : τ → σ) (R : {α : Type} → Act τ α → Act σ α → Prop) : Prop where
  pure : ∀ {α : Type} (x : α), R (pure x) (pure x)
  bind : ∀ {α β : Type} {a' : Act τ α} {a : Act σ α} {f' : α → Act τ β} {f : α → Act σ β},
    R a' a → (∀ x, R (f' x) (f x)) → R (a' >>= f') (a >>= f)
  get_bind : ∀ {α : Type} {f' : τ → Act τ α} {f : σ → Act σ α},
    (∀ t, R (f' t) (f (forget t))) → R (get >>= f') (get >>= f)

structure Act.Recovers (forget : τ → σ) (R : {α : Type} → Act τ α → Act σ α → Prop) : Prop
    extends Act.Congruence forget R where
  throw : ∀ {α : Type} (e : Failure), R (throw e : Act τ α) (throw e)
  attempt : ∀ {α : Type} {a' : Act τ α} {a : Act σ α}, R a' a → R (attempt a') (attempt a)
  ignore : ∀ {a' : Act τ Unit} {a : Act σ Unit}, R a' a → R (ignore a') (ignore a)

namespace Act.Congruence

variable (hR : Act.Congruence forget R)
include hR

theorem mapM {f' : α → Act τ β} {f : α → Act σ β} {l : List α} (h : ∀ x ∈ l, R (f' x) (f x)) :
    R (l.mapM f') (l.mapM f) := by
  induction l with
  | nil => exact hR.pure []
  | cons x l ih =>
      obtain ⟨hx, hl⟩ := List.forall_mem_cons.1 h
      rw [List.mapM_cons, List.mapM_cons]
      exact hR.bind hx fun y => hR.bind (ih hl) fun ys => hR.pure _

theorem foldlM {f' : β → α → Act τ β} {f : β → α → Act σ β} (h : ∀ y x, R (f' y x) (f y x))
    (l : List α) (y : β) : R (l.foldlM f' y) (l.foldlM f y) := by
  induction l generalizing y with
  | nil => exact hR.pure y
  | cons x l ih =>
      rw [List.foldlM_cons, List.foldlM_cons]
      exact hR.bind (h y x) ih

end Act.Congruence

theorem Act.recovers_erases (forget : τ → σ) : Act.Recovers forget fun a' a => Erases forget a' a where
  pure := erases_pure forget
  bind h hf := h.bind hf
  get_bind h t := h t t
  throw := erases_throw forget
  attempt h := h.attempt
  ignore h := h.ignore

namespace Updater

/-- Two updaters for one containment, the calls of which are related. Searches need to be only in the
fields that the containment leads through. -/
structure Alike (u' : Updater τ τ) (u : Updater σ σ) (forget : τ → σ)
    (R : {α : Type} → Act τ α → Act σ α → Prop) : Prop where
  containment : u'.containment = u.containment
  pageSize : u'.pageSize = u.pageSize
  get : ∀ key, R (u'.provider.get key) (u.provider.get key)
  getBatch : ∀ root ids, R (u'.provider.getBatch root ids) (u.provider.getBatch root ids)
  find : ∀ q, q.field ∈ u.containment.idFields → R (u'.index.find q) (u.index.find q)
  update : ∀ d, R (u'.index.update d) (u.index.update d)
  delete : ∀ key, R (u'.index.delete key) (u.index.delete key)
  bound : ∀ t, u'.index.bound t = u.index.bound (forget t)

namespace Alike

variable {u' : Updater τ τ} {u : Updater σ σ} (h : u'.Alike u forget R) (hR : Act.Congruence forget R)
include h hR

theorem findAll {field : String} (hf : field ∈ u.containment.idFields) (root value : String)
    (fuel first : Nat) :
    R (u'.findAll root field value fuel first) (u.findAll root field value fuel first) := by
  induction fuel generalizing first with
  | zero => exact hR.pure []
  | succ fuel ih =>
      rw [Updater.findAll, Updater.findAll, h.pageSize]
      refine hR.bind (h.find _ hf) fun page => ?_
      split
      next => exact hR.pure page
      next => exact hR.bind (ih _) fun later => hR.pure _

theorem containing {lookup : RootLookup} (hl : ∀ f ∈ lookup.idFields, f ∈ u.containment.idFields)
    (value : String) : R (u'.containing lookup value) (u.containing lookup value) := by
  rw [Updater.containing, Updater.containing]
  refine hR.get_bind fun t => ?_
  rw [h.bound]
  exact hR.bind (hR.mapM fun f hf => h.findAll hR (hl f hf) _ _ _ 0) fun pages => hR.pure _

theorem replaceAll (documents : List Document) : R (u'.replaceAll documents) (u.replaceAll documents) := by
  induction documents with
  | nil => exact hR.pure ()
  | cons d documents ih => exact hR.bind (h.update d) fun _ => ih

theorem refreshChunks (root : String) (done : List EntityId) (cs : List (List EntityId)) :
    R (u'.refreshChunks root done cs) (u.refreshChunks root done cs) := by
  induction cs generalizing done with
  | nil => exact hR.pure 0
  | cons chunk cs ih =>
      rw [Updater.refreshChunks, Updater.refreshChunks]
      refine hR.bind (h.getBatch root chunk) fun loaded => ?_
      exact hR.bind (h.replaceAll hR _) fun _ => hR.bind (ih _) fun later => hR.pure _

theorem refresh {lookup : RootLookup} (hl : ∀ f ∈ lookup.idFields, f ∈ u.containment.idFields)
    (id : EntityId) (o : BatchOutcome) : R (u'.refresh lookup id o) (u.refresh lookup id o) := by
  rw [Updater.refresh, Updater.refresh, h.pageSize]
  split
  next => exact hR.pure o
  next =>
    refine hR.bind (h.containing hR hl _) fun ids => ?_
    exact hR.bind (h.refreshChunks hR _ _ _) fun count => hR.pure _

theorem applyDirect (key : EntityKey) (survivor : Option Document) (lookup : RootLookup)
    (o : BatchOutcome) :
    R (u'.applyDirect key survivor lookup o) (u.applyDirect key survivor lookup o) := by
  unfold Updater.applyDirect
  split
  next =>
    cases survivor with
    | some d => exact hR.bind (h.update d) fun _ => hR.pure _
    | none => exact hR.bind (h.delete key) fun _ => hR.pure _
  next => exact hR.pure o

theorem applyLookups {ls : List RootLookup}
    (hls : ∀ l ∈ ls, ∀ f ∈ l.idFields, f ∈ u.containment.idFields) (key : EntityKey)
    (survivor : Option Document) (o : BatchOutcome) :
    R (u'.applyLookups key survivor ls o) (u.applyLookups key survivor ls o) := by
  induction ls generalizing o with
  | nil => exact hR.pure o
  | cons l ls ih =>
      obtain ⟨hl, hls⟩ := List.forall_mem_cons.1 hls
      rw [Updater.applyLookups, Updater.applyLookups]
      refine hR.bind (h.applyDirect hR key survivor l o) fun o => ?_
      exact hR.bind (h.refresh hR hl key.id o) (ih hls)

theorem applyEvent (o : BatchOutcome) (e : ChangeEvent) : R (u'.applyEvent o e) (u.applyEvent o e) := by
  have hls : ∀ l ∈ u.containment.rootsContaining e.entityType, ∀ f ∈ l.idFields,
      f ∈ u.containment.idFields :=
    fun l hl f hf => Containment.mem_idFields.2 ⟨_, l, hl, hf⟩
  rw [Updater.applyEvent, Updater.applyEvent, h.containment]
  split
  next => exact hR.pure _
  next =>
    have hget := h.get ⟨e.entityType, e.id⟩
    cases e.eventType with
    | insert | update =>
        refine hR.bind hget fun survivor => ?_
        cases survivor with
        | none => exact hR.pure _
        | some d => exact h.applyLookups hR hls _ _ o
    | delete =>
        dsimp only
        split
        next => exact hR.bind hget fun survivor => h.applyLookups hR hls _ survivor o
        next => exact hR.bind (hR.pure none) fun survivor => h.applyLookups hR hls _ survivor o

end Alike

structure AlikeThroughout (u' : Updater τ τ) (u : Updater σ σ) (forget : τ → σ)
    (R : {α : Type} → Act τ α → Act σ α → Prop) : Prop extends u'.Alike u forget R where
  openSession : R u'.provider.start u.provider.start
  closeSession : R u'.provider.close u.provider.close
  start : R u'.index.start u.index.start
  commit : R u'.index.commit u.index.commit
  rollback : R u'.index.rollback u.index.rollback

variable {u' : Updater τ τ} {u : Updater σ σ}

theorem AlikeThroughout.batch (h : u'.AlikeThroughout u forget R) (hR : Act.Recovers forget R)
    (events : List ChangeEvent) : R (u'.batch events) (u.batch events) := by
  have htransact : R (u'.transact events) (u.transact events) := by
    rw [transact, transact]
    refine hR.bind h.start fun _ => ?_
    refine hR.bind (hR.attempt (hR.foldlM (h.applyEvent hR.toCongruence) events {})) ?_
    rintro (e | o)
    · exact hR.bind (hR.ignore h.rollback) fun _ => hR.throw e
    · exact hR.bind h.commit fun _ => hR.pure o
  rw [Updater.batch, Updater.batch]
  split
  next => exact hR.pure _
  next =>
    refine hR.bind h.openSession fun _ => hR.bind (hR.attempt htransact) fun result => ?_
    refine hR.bind (hR.ignore h.closeSession) fun _ => ?_
    cases result with
    | ok o => exact hR.pure o
    | error e => exact hR.throw e

end Updater

end ChangeFeed
