import ChangeFeed.Proofs.Ends
import ChangeFeed.Proofs.Log.Reading

namespace ChangeFeed

open Act

/-- The store holds `log`. Its state is `Out` between transactions, with the log as committed, and
`In` one with the rows that it deleted so far. Calls fail only if `faulty`, and a call that fails
changes nothing that matters. A deletion may be reported with fewer rows than it deleted. -/
structure LogStore.Holds {σ : Type} (S : LogStore σ) (log : MemoryLog) (Out : MemoryLog → σ → Prop)
    (In : List (String × Int64) → σ → Prop) (faulty : Prop) : Prop where
  start : ∀ s, Out log s → Ends S.start s (fun _ t => In [] t) fun _ t => faulty ∧ Out log t
  fetch : ∀ m after limit gone s, In gone s →
    Ends (S.fetch m after limit) s
      (fun rows t => rows = (MemoryLog.Tx.mk log gone).window m.logTable after limit ∧ In gone t)
      fun _ t => faulty ∧ In gone t
  delete : ∀ m ids gone s, In gone s →
    Ends (S.delete m ids) s
      (fun n t => (n = ((MemoryLog.Tx.mk log gone).delete m.logTable ids).1 ∨
          faulty ∧ n ≤ ((MemoryLog.Tx.mk log gone).delete m.logTable ids).1 - 1) ∧
        In ((MemoryLog.Tx.mk log gone).delete m.logTable ids).2.deleted t)
      fun _ t => faulty ∧ In gone t
  commit : ∀ gone s, In gone s →
    Ends S.commit s (fun _ t => Out (log.without gone) t) fun _ t => faulty ∧ Out log t
  rollback : ∀ gone s, In gone s →
    Ends S.rollback s (fun _ t => Out log t) fun _ t => faulty ∧ Out log t
  abandon : ∀ gone s, In gone s → Out log (S.abandon s)

theorem LogStore.Holds.mono {σ : Type} {S : LogStore σ} {log : MemoryLog} {Out : MemoryLog → σ → Prop}
    {In : List (String × Int64) → σ → Prop} {faulty faulty' : Prop} (h : S.Holds log Out In faulty)
    (hf : faulty → faulty') : S.Holds log Out In faulty' where
  start s hs := (h.start s hs).mono (fun _ _ h => h) fun _ _ h => h.imp_left hf
  fetch m after limit gone s hs :=
    (h.fetch m after limit gone s hs).mono (fun _ _ h => h) fun _ _ h => h.imp_left hf
  delete m ids gone s hs := (h.delete m ids gone s hs).mono
    (fun _ _ h => h.imp_left (Or.imp_right (And.imp_left hf))) fun _ _ h => h.imp_left hf
  commit gone s hs := (h.commit gone s hs).mono (fun _ _ h => h) fun _ _ h => h.imp_left hf
  rollback gone s hs := (h.rollback gone s hs).mono (fun _ _ h => h) fun _ _ h => h.imp_left hf
  abandon := h.abandon

namespace MemoryLog

variable {log : MemoryLog} {gone : List (String × Int64)}

theorem Tx.log_delete (tx : Tx) (name : String) (ids : List Int64) :
    (tx.delete name ids).2.log = tx.log := by
  induction ids generalizing tx with
  | nil => rfl
  | cons n ids ih =>
      rw [Tx.delete]
      split
      · exact ih _
      · exact ih tx

theorem store_holds (log : MemoryLog) (faulty : Prop) :
    store.Holds log (fun log tx => tx.log = log) (fun gone tx => tx = ⟨log, gone⟩) faulty where
  start tx h := ends_modify (by rw [← h])
  fetch m after limit gone tx h := by
    subst h
    exact ⟨rfl, rfl⟩
  delete m ids gone tx h := by
    subst h
    have hlog := Tx.log_delete ⟨log, gone⟩ m.logTable ids
    refine ⟨.inl rfl, ?_⟩
    show ((Tx.mk log gone).delete m.logTable ids).2 = _
    cases h : ((Tx.mk log gone).delete m.logTable ids).2 with
    | mk log' gone' =>
        rw [h] at hlog
        cases hlog
        rfl
  commit gone tx h := ends_modify (by rw [h]; rfl)
  rollback gone tx h := ends_modify (by rw [h])
  abandon gone tx h := by rw [h]; rfl

theorem Tx.delete_eq {name : String} {ids : List Int64} (hnd : ids.Nodup)
    (hin : ∀ n ∈ ids, (log.table name).contains n) (hgone : ∀ n ∈ ids, (name, n) ∉ gone) :
    (Tx.mk log gone).delete name ids =
      (ids.length, ⟨log, (ids.map (name, ·)).reverse ++ gone⟩) := by
  induction ids generalizing gone with
  | nil => rfl
  | cons n ids ih =>
      obtain ⟨hn, hnd'⟩ := List.nodup_cons.1 hnd
      have hhere := hgone n (List.mem_cons_self ..)
      have hin' : ∀ n ∈ ids, (log.table name).contains n :=
        fun n' hn' => hin n' (List.mem_cons_of_mem _ hn')
      have hgone' : ∀ n' ∈ ids, (name, n') ∉ (name, n) :: gone := by
        intro n' hn' hmem
        rcases List.mem_cons.1 hmem with he | hmem
        · exact hn ((Prod.mk.inj he).2 ▸ hn')
        · exact hgone n' (List.mem_cons_of_mem _ hn') hmem
      rw [Tx.delete, if_pos ⟨hin n (List.mem_cons_self ..), hhere⟩]
      simp only [ih hnd' hin' hgone', List.length_cons, List.map_cons, List.reverse_cons,
        List.append_assoc, List.cons_append, List.nil_append]

theorem fetch_serves {σ : Type} {S : LogStore σ} {Out : MemoryLog → σ → Prop}
    {In : List (String × Int64) → σ → Prop} {faulty : Prop} (hS : S.Holds log Out In faulty) :
    FetchWindow.Serves S.fetch (fun m => log.pending m.logTable) (In []) faulty := by
  intro m after limit s hs
  refine (hS.fetch m after limit [] s hs).mono ?_ fun _ _ h => h
  intro rows t hend
  obtain ⟨rfl, ht⟩ := hend
  refine ⟨?_, ht⟩
  simp [Tx.window, Tx.visible]

end MemoryLog

end ChangeFeed
