import ChangeFeed.Proofs.Decoding

namespace ChangeFeed

structure RowChange where
  position : Nat
  eventType : EventType
  values : List IdValue

namespace MemoryLog

def recordAll (models : List LogModel) : MemoryLog → List RowChange → MemoryLog × List Delivery
  | log, [] => (log, [])
  | log, x :: xs =>
    match models[x.position]? with
    | none => recordAll models log xs
    | some m =>
      match log.record m x.eventType x.values with
      | .error _ => recordAll models log xs
      | .ok (n, log) =>
        ((recordAll models log xs).1,
          (x.position, m.row n x.eventType x.values) :: (recordAll models log xs).2)

variable {log log' : MemoryLog} {models : List LogModel} {m : LogModel} {k : Nat} {n : Int64}
  {t : EventType} {values : List IdValue}

theorem sequence_record (hmax : log.sequence ≠ Int64.maxValue)
    (hr : log.record m t values = .ok (n, log')) :
    log'.sequence.toInt = log.sequence.toInt + 1 := by
  obtain ⟨-, rfl, rfl⟩ := record_ok hr
  exact toInt_add_one hmax

theorem events_record (hvalid : ∀ m ∈ models, m.validate = .ok ()) (hk : models[k]? = some m)
    (hr : log.record m t values = .ok (n, log')) :
    ∃ es, Delivery.events models (k, m.row n t values) = .ok es := by
  obtain ⟨es, hes, -⟩ :=
    LogModel.events_row (hvalid m (List.mem_of_getElem? hk)) (record_ok hr).1 n t
  refine ⟨es, ?_⟩
  simp only [Delivery.events, hk, LogRow.eventType?, LogModel.row, EventType.ofCode?_code]
  exact hes

theorem recordAll_spec (h : log.Stamped) (hvalid : ∀ m ∈ models, m.validate = .ok ())
    (hnd : (models.map (·.logTable)).Nodup) (xs : List RowChange)
    (hseq : log.sequence.toInt + xs.length < Int64.maxValue.toInt) :
    (log.recordAll models xs).1.Stamped ∧
      (log.recordAll models xs).1.sequence ≠ Int64.maxValue ∧
      (log.recordAll models xs).1.merged models = log.merged models ++ (log.recordAll models xs).2 ∧
      ∀ d ∈ (log.recordAll models xs).2, ∃ es, d.events models = .ok es := by
  have hmax : log.sequence ≠ Int64.maxValue := by
    intro he
    rw [he] at hseq
    omega
  induction xs generalizing log with
  | nil => exact ⟨h, hmax, (List.append_nil _).symm, fun d hd => by cases hd⟩
  | cons x xs ih =>
      rw [List.length_cons] at hseq
      have hskip := ih h (by omega) hmax
      rw [recordAll]
      split
      next => exact hskip
      next m hm =>
        split
        next => exact hskip
        next n log' hr =>
          have hn := sequence_record hmax hr
          have hmax' : log'.sequence ≠ Int64.maxValue := by
            intro he
            rw [he] at hn
            omega
          obtain ⟨hs, hq, hmerged, hevents⟩ := ih (h.record hmax hr) (by omega) hmax'
          refine ⟨hs, hq, ?_, List.forall_mem_cons.2 ⟨events_record hvalid hm hr, hevents⟩⟩
          rw [hmerged, merged_record h hmax hnd hm hr, List.append_assoc]
          rfl

end MemoryLog

end ChangeFeed
