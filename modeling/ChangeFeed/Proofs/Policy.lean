import ChangeFeed.Log.Sql
import ChangeFeed.Proofs.Exact

namespace ChangeFeed

open Act

variable {σ κ : Type}

def LogStore.Reads (S : LogStore σ) : Prop := ∀ m after limit s, Keeps (· = s) (S.fetch m after limit)

theorem MemoryLog.store_reads : MemoryLog.store.Reads := fun _ _ _ _ =>
  keeps_get.bind fun _ => keeps_pure _

theorem SqlLog.store_reads : SqlLog.store.Reads := fun _ _ _ _ =>
  keeps_get.bind fun _ => keeps_ofExcept _

namespace Poller

def entry? : String × Except Failure Unit → Option String
  | (_, .ok ()) => none
  | (name, .error e) => some s!"{name}: {e.display}"

section

variable {events : List ChangeEvent} {c : Consumer κ}

theorem dispatch_abort_fails (i : Nat) {before later : List (Consumer κ)} {e : Failure} {k' : κ}
    {t : κ × List Call} (h : AllSucceed events before t.1)
    (hc : (c.receive events).outcome (leave events before t.1) = (.error e, k')) :
    dispatch .abort events (Consumer.notedFrom i (before ++ c :: later)) t =
      .error (.consumer c.name e) (k', t.2 ++ callsFrom i (before.length + 1) events) := by
  induction before generalizing i t with
  | nil =>
      have hc : (c.receive events).outcome t.1 = (.error e, k') := hc
      rw [List.nil_append, Consumer.notedFrom_cons, dispatch_cons, Consumer.outcome_noted, hc]
      rfl
  | cons d before ih =>
      obtain ⟨hd, hbefore⟩ := allSucceed_cons.1 h
      rw [List.cons_append, Consumer.notedFrom_cons, dispatch_cons, Consumer.outcome_noted, hd]
      refine (ih (i + 1) (t := (_, t.2 ++ [⟨i, events⟩])) hbefore hc).trans ?_
      rw [callsFrom_append_succ]
      rfl

theorem dispatch_continues (cs : List (Consumer κ)) (i : Nat) (t : κ × List Call) :
    dispatch .logAndContinue events (Consumer.notedFrom i cs) t =
      .ok ((endings events cs t.1).filterMap entry?)
        (leave events cs t.1, t.2 ++ callsFrom i cs.length events) := by
  induction cs generalizing i t with
  | nil => exact congrArg (EStateM.Result.ok []) (Prod.ext rfl (List.append_nil _).symm)
  | cons c cs ih =>
      have hrest := ih (i + 1) (((c.receive events).outcome t.1).2, t.2 ++ [⟨i, events⟩])
      rw [callsFrom_append_succ] at hrest
      rw [Consumer.notedFrom_cons, dispatch_cons, Consumer.outcome_noted, endings]
      cases hc : ((c.receive events).outcome t.1).1 with
      | ok u => exact hrest
      | error e =>
          dsimp only
          rw [bind_apply, hrest]
          rfl

end

section

variable {p : Poller κ} {S : LogStore σ} {s s₁ s₃ : σ} {b : Batch} {k k' : κ}

theorem rows_ne_nil (hb : (S.start >>= fun _ => p.collect S) s = .ok b s₁) (hevents : b.events ≠ []) :
    b.rows ≠ [] := by
  have hadded (b : Batch) (d : Delivery) (b' : Batch) (h : b.add p.models d = .ok b')
      (hnil : b'.rows = []) : b'.events = [] := by
    rw [Batch.rows_of_add h] at hnil
    exact absurd hnil (List.append_ne_nil_of_right_ne_nil _ (List.cons_ne_nil _ _))
  have hcollect (s : σ) : Ends (p.collect S) s (fun b _ => b.rows = [] → b.events = [])
      fun _ _ => True :=
    collect_ends_of_read <| (ends_any _ _).bind fun _ t _ =>
      Merge.foldRows_good S.fetch hadded p.config.batchSize (fun _ => rfl) t
  have hends := (ends_any S.start s).bind fun _ t _ => hcollect t
  exact fun hnil => hevents (hends.of_ok hb hnil)

/-- The rows of a batch can be deleted and the transaction committed, which leaves the store in `s₃`. -/
def Clears (p : Poller κ) (S : LogStore σ) (b : Batch) (s₁ s₃ : σ) : Prop :=
  ∃ s₂, remove S b 0 p.models s₁ = .ok () s₂ ∧ S.commit s₂ = .ok () s₃

variable (hb : (S.start >>= fun _ => p.collect S) s = .ok b s₁)
include hb

theorem outcome_drain : ∃ s₀, S.start s = .ok () s₀ ∧ p.drain S (s₀, k) = (do
    let failures ← Act.onSnd (p.hand b)
    Act.onFst (remove S b 0 p.models)
    return b.report failures : Act (σ × κ) PollReport) (s₁, k) := by
  rw [bind_apply] at hb
  cases hstart : S.start s with
  | error e s₀ =>
      rw [hstart] at hb
      cases hb
  | ok u s₀ =>
      rw [hstart] at hb
      have hcollect : p.collect S s₀ = .ok b s₁ := hb
      refine ⟨s₀, rfl, ?_⟩
      rw [drain_eq, bind_apply, Act.onFst, hcollect]

theorem poll_of_hand_error {e : Failure} (h : p.hand b k = .error e k') :
    p.poll S (s, k) = .error e ((S.rollback.outcome s₁).2, k') := by
  obtain ⟨s₀, hstart, hdrain⟩ := outcome_drain (k := k) hb
  have hfails : (p.drain S).outcome (s₀, k) = (.error e, s₁, k') := by
    rw [outcome, hdrain, bind_apply, Act.onSnd, h]
  rw [poll, bind_apply, Act.onFst, hstart]
  dsimp only
  rw [attempt_bind_apply, hfails]
  dsimp only
  rw [bind_apply, Act.ignore, Act.onFst, outcome]
  cases S.rollback s₁ <;> rfl

theorem poll_of_hand_ok {failures : List String} (h : p.hand b k = .ok failures k')
    (hrows : b.rows ≠ []) (hclears : p.Clears S b s₁ s₃) :
    p.poll S (s, k) = .ok (b.report failures) (s₃, k') := by
  obtain ⟨s₀, hstart, hdrain⟩ := outcome_drain (k := k) hb
  obtain ⟨s₂, hremove, hcommit⟩ := hclears
  have hends : (p.drain S).outcome (s₀, k) = (.ok (b.report failures), s₂, k') := by
    rw [outcome, hdrain, bind_apply, Act.onSnd, h]
    dsimp only
    rw [bind_apply, Act.onFst, hremove]
    rfl
  have hfull : (b.report failures).isEmpty = false := by
    simpa [PollReport.isEmpty, Batch.report] using hrows
  rw [poll, bind_apply, Act.onFst, hstart]
  dsimp only
  rw [attempt_bind_apply, hends]
  dsimp only
  rw [hfull, bind_apply, Act.onFst, if_neg Bool.false_ne_true, hcommit]
  rfl

theorem collected_of_reads (hS : S.Reads) : s₁ = (S.start.outcome s).2 := by
  rw [bind_apply] at hb
  cases hstart : S.start s with
  | error e s₀ =>
      rw [hstart] at hb
      cases hb
  | ok u s₀ =>
      rw [hstart] at hb
      rw [outcome, hstart]
      exact (collect_keeps (fun m after limit => hS m after limit s₀) s₀ rfl).of_ok hb

variable {log : MemoryLog} {Out : MemoryLog → σ → Prop} {In : List (String × Int64) → σ → Prop}

theorem collected_of_holds (hp : p.Accepted) (hS : S.Holds log Out In False) (hlog : log.Coherent)
    (hs : Out log s) : Out log (S.rollback.outcome s₁).2 ∧
      ∃ s₃, p.Clears S b s₁ s₃ ∧ Out (log.without (MemoryLog.keysOf p.models b.rows)) s₃ := by
  -- Reading may fail at the greatest sequence id, and has not done so.
  have hread : Ends (S.start >>= fun _ => p.collect S) s
      (fun b t => p.nextBatch log = .ok b ∧ In [] t) fun _ _ => True :=
    (hS.start s hs).seq (fun _ _ _ => trivial) fun _ t ht =>
      (collect_ends (hS.mono False.elim) hlog (fun _ _ _ _ => trivial) ht).mono (fun _ _ h => h)
        fun _ _ _ => trivial
  obtain ⟨hbatch, hin⟩ := hread.of_ok hb
  obtain ⟨u, t, hrollback, hout⟩ :=
    ((hS.rollback [] s₁ hin).mono (fun _ _ h => h) fun _ _ h => h.1).exists_ok
  refine ⟨?_, ?_⟩
  · rw [outcome, hrollback]
    exact hout
  obtain ⟨⟨⟩, s₂, hremove, gone, hgone, hmem⟩ :=
    ((remove_all_ends hS hlog hp (nextBatch_from hlog hbatch) hin).mono (fun _ _ h => h)
      fun _ _ h => h.1).exists_ok
  obtain ⟨⟨⟩, s₃, hcommit, hcommitted⟩ :=
    ((hS.commit gone s₂ hgone).mono (fun _ _ h => h) fun _ _ h => h.1).exists_ok
  refine ⟨s₃, ⟨s₂, hremove, hcommit⟩, ?_⟩
  rwa [← MemoryLog.without_congr hmem]

end

/-- A poll of a batch that was read. The store is rolled back under `abort` if a consumer fails, and else
the rows of the batch are deleted, under either policy. -/
theorem poll_by_policy {models : List LogModel} {consumers : List (Consumer κ)} {config : PollerConfig}
    {p : Poller κ} (hp : make models consumers config = .ok p) {S : LogStore σ} {s s₁ : σ} {b : Batch}
    (hb : (S.start >>= fun _ => p.collect S) s = .ok b s₁) (hevents : b.events ≠ []) (k : κ) :
    Erases (fun t => (t.1, t.2.1)) (p.noted.poll S) (p.poll S) ∧
    (config.policy = .abort →
      (∀ before c later e k', consumers = before ++ c :: later → AllSucceed b.events before k →
        (c.receive b.events).outcome (leave b.events before k) = (.error e, k') →
        ∃ f, p.noted.poll S (s, k, []) =
            .error f ((S.rollback.outcome s₁).2, k', callsFrom 0 (before.length + 1) b.events) ∧
          f = .consumer c.name e ∧ f.kind = .consumer ∧ f.sourceText = some e.display) ∧
      (AllSucceed b.events consumers k → ∀ s₃, p.Clears S b s₁ s₃ →
        p.noted.poll S (s, k, []) = .ok (b.report [])
          (s₃, leave b.events consumers k, callsFrom 0 consumers.length b.events))) ∧
    (config.policy = .logAndContinue → ∀ s₃, p.Clears S b s₁ s₃ →
      p.noted.poll S (s, k, []) =
        .ok (b.report ((endings b.events consumers k).filterMap entry?))
          (s₃, leave b.events consumers k, callsFrom 0 consumers.length b.events)) ∧
    (S.Reads → s₁ = (S.start.outcome s).2) ∧
    ∀ log Out In, S.Holds log Out In False → log.Coherent → Out log s →
      Out log (S.rollback.outcome s₁).2 ∧
        ∃ s₃, p.Clears S b s₁ s₃ ∧ Out (log.without (MemoryLog.keysOf models b.rows)) s₃ := by
  obtain ⟨rfl, hacc⟩ := make_ok hp
  have hnoted : (S.start >>= fun _ => (noted ⟨models, consumers, config⟩).collect S) s = .ok b s₁ := hb
  have hhand : (noted ⟨models, consumers, config⟩).hand b =
      dispatch config.policy b.events (Consumer.notedFrom 0 consumers) := if_neg hevents
  have hrows := rows_ne_nil hb hevents
  refine ⟨erases_poll_noted _ _, fun hpolicy => ⟨?_, fun h s₃ hclears => ?_⟩, fun hpolicy s₃ hclears => ?_,
    collected_of_reads hb, fun log Out In hS hlog hs => collected_of_holds hb hacc hS hlog hs⟩
  · rintro before c later e k' rfl h hc
    refine ⟨_, poll_of_hand_error hnoted ?_, rfl, rfl, rfl⟩
    rw [hhand, hpolicy]
    exact dispatch_abort_fails 0 (t := (k, [])) h hc
  · refine poll_of_hand_ok hnoted ?_ hrows hclears
    rw [hhand]
    exact dispatch_succeeds 0 (t := (k, [])) h
  · refine poll_of_hand_ok hnoted ?_ hrows hclears
    rw [hhand, hpolicy]
    exact dispatch_continues consumers 0 (k, [])

end Poller

end ChangeFeed

namespace ChangeFeed.Sample

open Act Poller

def broken (name : String) : Consumer Nat where
  name := name
  receive events := do
    modify (· + events.length)
    throw (.io s!"{name} is full")

def brokenConsumers : List (Consumer Nat) := [counter, broken "mail", counter, broken "cache"]

def brokenPoller (policy : FailurePolicy) : Poller Nat := ⟨[spellLog], brokenConsumers, { policy }⟩

def oneSpell : MemoryLog := .ofRows [("spell_log", spellLog.row 5 .update [.integer 1])]

def oneSpellBatch : Batch where
  rows := [(0, spellLog.row 5 .update [.integer 1])]
  events := [⟨"Spell", ⟨[.integer 1]⟩, .update⟩]

theorem poll_oneSpell :
    (∀ policy ∈ FailurePolicy.all,
      make [spellLog] brokenConsumers { policy } = .ok (brokenPoller policy) ∧
      (MemoryLog.store.start >>= fun _ => (brokenPoller policy).collect MemoryLog.store)
        ⟨oneSpell, []⟩ = .ok oneSpellBatch ⟨oneSpell, []⟩) ∧
      oneSpellBatch.events ≠ [] ∧
      AllSucceed oneSpellBatch.events [counter] 0 ∧
      (∃ f, (brokenPoller .abort).noted.poll MemoryLog.store (⟨oneSpell, []⟩, 0, []) =
          .error f (⟨oneSpell, []⟩, 2, callsFrom 0 2 oneSpellBatch.events) ∧
        f = .consumer "mail" (.io "mail is full") ∧ f.kind = .consumer ∧
        f.sourceText = some "[io] I/O error: mail is full") ∧
      ∃ s₃, (brokenPoller .logAndContinue).noted.poll MemoryLog.store (⟨oneSpell, []⟩, 0, []) =
          .ok (oneSpellBatch.report
              ["mail: [io] I/O error: mail is full", "cache: [io] I/O error: cache is full"])
            (s₃, 4, callsFrom 0 4 oneSpellBatch.events) ∧
        s₃.log.pending "spell_log" = [] := by
  have hmake (policy : FailurePolicy) :
      make [spellLog] brokenConsumers { policy } = .ok (brokenPoller policy) := rfl
  have hcollect (policy : FailurePolicy) :
      (MemoryLog.store.start >>= fun _ => (brokenPoller policy).collect MemoryLog.store)
        ⟨oneSpell, []⟩ = .ok oneSpellBatch ⟨oneSpell, []⟩ := rfl
  have hevents : oneSpellBatch.events ≠ [] := List.cons_ne_nil _ _
  have hcounter : AllSucceed oneSpellBatch.events [counter] 0 := List.forall_mem_singleton.2 rfl
  have habort := poll_by_policy (hmake .abort) (hcollect .abort) hevents 0
  have hcontinue := poll_by_policy (hmake .logAndContinue) (hcollect .logAndContinue) hevents 0
  obtain ⟨-, s₃, hclears, hcleared⟩ := hcontinue.2.2.2.2 oneSpell _ _
    (MemoryLog.store_holds oneSpell False) (MemoryLog.coherent_ofRows _) rfl
  have hgone : (oneSpell.without (MemoryLog.keysOf [spellLog] oneSpellBatch.rows)).pending "spell_log" =
      [] := by decide +kernel
  refine ⟨fun policy _ => ⟨hmake policy, hcollect policy⟩, hevents, hcounter, ?_, s₃,
    hcontinue.2.2.1 rfl s₃ hclears, ?_⟩
  · exact (habort.2.1 rfl).1 [counter] (broken "mail") [counter, broken "cache"] _ _ rfl hcounter rfl
  · rw [show s₃.log = _ from hcleared]
    exact hgone

end ChangeFeed.Sample
