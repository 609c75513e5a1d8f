import ChangeFeed.Fault
import ChangeFeed.Proofs.Log.Transaction
import ChangeFeed.Proofs.Updater

namespace ChangeFeed.Faults

open Act

variable {φ σ π ι α : Type}

def ofAsk (ask : FaultPoint → φ → Option Failure × φ) : Faults φ := ⟨ask, fun _ => []⟩

/-- As long as `Q` holds calls fail only if `faulty`, and nothing is returned beside what was asked
for. -/
structure Keeps (f : Faults φ) (Q : φ → Prop) (faulty : Prop) : Prop where
  ask : ∀ p x, Q x → Q (f.ask p x).2
  failure : ∀ p x, Q x → (f.ask p x).1 ≠ none → faulty
  extra : ∀ x, Q x → f.extra x = []

def after (f : Faults φ) (ps : List FaultPoint) (x : φ) : φ :=
  ps.foldl (fun x p => (f.ask p x).2) x

/-- No call fails, whatever calls were made before it. -/
def Quiet (f : Faults φ) (x : φ) : Prop := ∀ ps p, (f.ask p (f.after ps x)).1 = none

theorem keeps_ofAsk (ask : FaultPoint → φ → Option Failure × φ) :
    (ofAsk ask).Keeps (fun _ => True) True where
  ask _ _ _ := trivial
  failure _ _ _ _ := trivial
  extra _ _ := rfl

theorem keeps_quiet (ask : FaultPoint → φ → Option Failure × φ) :
    (ofAsk ask).Keeps (ofAsk ask).Quiet False where
  ask p _ hx ps q := hx (p :: ps) q
  failure p _ hx h := h (hx [] p)
  extra _ _ := rfl

variable {f : Faults φ} {Q : φ → Prop} {faulty : Prop}

theorem next_ends (hf : f.Keeps Q faulty) (p : FaultPoint) {s : φ × σ} (hQ : Q s.1) :
    Ends (f.next p) s (fun r t => (r ≠ none → faulty) ∧ Q t.1 ∧ t.2 = s.2) fun _ _ => False :=
  ⟨hf.failure p s.1 hQ, hf.ask p s.1 hQ, rfl⟩

theorem guard_ends (hf : f.Keeps Q faulty) (p : FaultPoint) {call : Act σ α} {X : σ → Prop}
    {ok : α → σ → Prop} {s : φ × σ} (hQ : Q s.1) (hX : X s.2)
    (h : Ends call s.2 ok fun _ t => faulty ∧ X t) :
    Ends (f.guard p call) s (fun x t => Q t.1 ∧ ok x t.2) fun _ t => faulty ∧ Q t.1 ∧ X t.2 := by
  rw [guard, pass]
  have hpass : Ends (f.pass p : Act (φ × σ) Unit) s (fun _ t => Q t.1 ∧ t.2 = s.2)
      fun _ t => faulty ∧ Q t.1 ∧ X t.2 := by
    refine (next_ends hf p hQ).seq (fun _ _ h => h.elim) ?_
    rintro (_ | e) t ⟨hr, hq, ht⟩
    · exact ends_pure ⟨hq, ht⟩
    · exact ends_throw ⟨hr (by simp), hq, ht ▸ hX⟩
  refine hpass.bind ?_
  intro _ t hend
  obtain ⟨hq, ht⟩ := hend
  refine ((ht ▸ h : Ends call t.2 ok fun _ t => faulty ∧ X t).onSnd).mono ?_ ?_
  · intro x t' hend
    obtain ⟨hx, ht'⟩ := hend
    exact ⟨ht' ▸ hq, hx⟩
  · intro e t' hend
    obtain ⟨⟨hfail, hx⟩, ht'⟩ := hend
    exact ⟨hfail, ht' ▸ hq, hx⟩

theorem finish_ends (hf : f.Keeps Q faulty) (p : FaultPoint) {abandon : σ → σ} {call : Act σ Unit}
    {X : σ → Prop} {ok : Unit → σ → Prop} {s : φ × σ} (hQ : Q s.1) (hX : X (abandon s.2))
    (h : Ends call s.2 ok fun _ t => faulty ∧ X t) :
    Ends (f.finish p abandon call) s (fun x t => Q t.1 ∧ ok x t.2)
      fun _ t => faulty ∧ Q t.1 ∧ X t.2 := by
  rw [finish]
  refine (next_ends hf p hQ).seq (fun _ _ h => h.elim) ?_
  rintro (_ | e) t ⟨hr, hq, ht⟩
  · refine ((ht ▸ h : Ends call t.2 ok fun _ t => faulty ∧ X t).onSnd).mono ?_ ?_
    · intro x t' hend
      obtain ⟨hx, ht'⟩ := hend
      exact ⟨ht' ▸ hq, hx⟩
    · intro e t' hend
      obtain ⟨⟨hfail, hx⟩, ht'⟩ := hend
      exact ⟨hfail, ht' ▸ hq, hx⟩
  · exact ends_modify_bind (ends_throw ⟨hr (by simp), hq, ht ▸ hX⟩)

theorem store_holds (hf : f.Keeps Q faulty) {S : LogStore σ} {log : MemoryLog}
    {Out : MemoryLog → σ → Prop} {In : List (String × Int64) → σ → Prop}
    (hS : S.Holds log Out In faulty) :
    (f.store S).Holds log (fun log w => Q w.1 ∧ Out log w.2) (fun gone w => Q w.1 ∧ In gone w.2)
      faulty where
  start w hw := guard_ends hf _ hw.1 hw.2 (hS.start w.2 hw.2)
  fetch m after limit gone w hw := by
    refine (guard_ends hf .storeFetch hw.1 hw.2 (hS.fetch m after limit gone w.2 hw.2)).mono ?_
      fun _ _ h => h
    intro rows t hend
    obtain ⟨hq, rfl, ht⟩ := hend
    exact ⟨rfl, hq, ht⟩
  delete m ids gone w hw := by
    refine (guard_ends hf .storeDelete hw.1 hw.2 (hS.delete m ids gone w.2 hw.2)).bind ?_
    intro n t hend
    obtain ⟨hq, hn, ht⟩ := hend
    refine (next_ends hf .storeCount hq).seq (fun _ _ h => h.elim) ?_
    rintro (_ | e) t' ⟨hr, hq', ht'⟩
    · exact ends_pure ⟨hn, hq', ht' ▸ ht⟩
    · have hfail : faulty := hr (by simp)
      refine ends_pure ⟨.inr ⟨hfail, ?_⟩, hq', ht' ▸ ht⟩
      rcases hn with hn | ⟨-, hn⟩
      · omega
      · omega
  commit gone w hw :=
    finish_ends hf _ hw.1 (hS.abandon gone w.2 hw.2) (hS.commit gone w.2 hw.2)
  rollback gone w hw :=
    finish_ends hf _ hw.1 (hS.abandon gone w.2 hw.2) (hS.rollback gone w.2 hw.2)
  abandon gone w hw := ⟨hw.1, hS.abandon gone w.2 hw.2⟩

theorem provider_serves (hf : f.Keeps Q faulty) {P : EntityProvider π} {E : Documents}
    {Idle Open : π → Prop} (hP : P.Serves E Idle Open faulty) :
    (f.provider P).Serves E (fun w => Q w.1 ∧ Idle w.2) (fun w => Q w.1 ∧ Open w.2) faulty where
  start w hw := guard_ends hf _ hw.1 hw.2 (hP.start w.2 hw.2)
  get k w hw := by
    refine (guard_ends hf .sessionGet hw.1 hw.2 (hP.get k w.2 hw.2)).mono ?_ fun _ _ h => h
    intro d t hend
    obtain ⟨hq, rfl, ht⟩ := hend
    exact ⟨rfl, hq, ht⟩
  getBatch root ids w hw := by
    refine (guard_ends hf .sessionGetBatch hw.1 hw.2 (hP.getBatch root ids w.2 hw.2)).bind ?_
    intro ds t hend
    obtain ⟨hq, rfl, ht⟩ := hend
    refine ends_get_bind (ends_pure ⟨?_, hq, ht⟩)
    rw [hf.extra t.1 hq, List.append_nil]
  close w hw := by
    refine (next_ends hf .sessionClose hw.1).seq (fun _ _ h => h.elim) ?_
    intro r t hend
    obtain ⟨hr, hq, ht⟩ := hend
    refine ((ht ▸ hP.close w.2 hw.2 :
      Ends P.close t.2 (fun _ t => Idle t) fun _ t => faulty ∧ Idle t).onSnd).seq ?_ ?_
    · intro e t' hend
      obtain ⟨⟨hfail, hi⟩, ht'⟩ := hend
      exact ⟨hfail, ht' ▸ hq, hi⟩
    · intro _ t' hend
      obtain ⟨hi, ht'⟩ := hend
      cases r with
      | none => exact ends_pure ⟨ht' ▸ hq, hi⟩
      | some e => exact ends_throw ⟨hr (by simp), ht' ▸ hq, hi⟩

theorem index_stages (hf : f.Keeps Q faulty) {X : IndexEngine ι} {I : Documents}
    {Idle : Documents → ι → Prop} {Staged : List Mutation → ι → Prop}
    (hX : X.Stages I Idle Staged faulty) :
    (f.index X).Stages I (fun D w => Q w.1 ∧ Idle D w.2) (fun ms w => Q w.1 ∧ Staged ms w.2)
      faulty where
  start w hw := guard_ends hf _ hw.1 hw.2 (hX.start w.2 hw.2)
  find q ms w hw := by
    refine (guard_ends hf .indexFind hw.1 hw.2 (hX.find q ms w.2 hw.2)).mono ?_ fun _ _ h => h
    intro ids t hend
    obtain ⟨hq, rfl, ht⟩ := hend
    exact ⟨rfl, hq, ht⟩
  update d ms w hw := guard_ends hf _ hw.1 hw.2 (hX.update d ms w.2 hw.2)
  delete k ms w hw := guard_ends hf _ hw.1 hw.2 (hX.delete k ms w.2 hw.2)
  commit ms w hw :=
    finish_ends hf _ hw.1 (hX.abandon ms w.2 hw.2) (hX.commit ms w.2 hw.2)
  rollback ms w hw :=
    finish_ends hf _ hw.1 (hX.abandon ms w.2 hw.2) (hX.rollback ms w.2 hw.2)
  abandon ms w hw := ⟨hw.1, hX.abandon ms w.2 hw.2⟩
  bound ms w hw := hX.bound ms w.2 hw.2

end ChangeFeed.Faults
