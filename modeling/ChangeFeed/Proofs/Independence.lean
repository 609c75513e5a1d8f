import ChangeFeed.Proofs.MemoryWorld

namespace ChangeFeed.Updater

open Act Reindex

structure Call where
  pageSize : Nat
  events : List ChangeEvent
  pageSize_pos : 0 < pageSize

def applyAll (c : Containment) (calls : List Call) :
    Act (World MemoryProvider MemoryIndex) (List BatchOutcome) :=
  calls.mapM fun call => (inMemory c call.pageSize).apply call.events

def eventsOf (calls : List Call) : List ChangeEvent := calls.flatMap (·.events)

theorem applyAll_ends (c : Containment) (calls : List Call) {w : World MemoryProvider MemoryIndex}
    {E I : Documents} (hE : E.Keyed) (hI : I.Keyed)
    (hw : (w.provider.documents = E ∧ w.provider.failing = []) ∧ w.index.documents = I) :
    Ends (applyAll c calls) w
      (fun _ t => t.provider.documents = E ∧ t.index.documents = reindex c E I (eventsOf calls))
      fun _ _ => False := by
  rw [applyAll]
  induction calls generalizing w I with
  | nil => exact ⟨hw.1.1, hw.2⟩
  | cons call calls ih =>
      rw [List.mapM_cons]
      have hP := MemoryProvider.serves E [] fun h : [] ≠ [] => (h rfl : False)
      have hX := MemoryIndex.stages I False
      refine (apply_ends hP hX hE call.pageSize_pos call.events hw).seq (fun _ _ h => h.1) ?_
      intro _ t hend
      obtain ⟨-, hp, hi, -⟩ := hend
      refine (ih (keyed_reindex hI call.events) ⟨hp, hi⟩).bind ?_
      intro _ t' hend
      obtain ⟨hp', hi'⟩ := hend
      refine ends_pure ⟨hp', ?_⟩
      rw [hi']
      exact reindex_append hE hI call.events (eventsOf calls)

/-- Two sequences of batches with the same events both succeed and end in the same index. -/
theorem applyAll_eq_of_same_events (c : Containment) {as bs : List Call}
    (h : ∀ e, e ∈ eventsOf as ↔ e ∈ eventsOf bs) (w : World MemoryProvider MemoryIndex)
    (hE : Documents.Keyed w.provider.documents) (hf : w.provider.failing = [])
    (hI : Documents.Keyed w.index.documents) :
    ∃ os t os' t', applyAll c as w = .ok os t ∧ applyAll c bs w = .ok os' t' ∧
      t.index.documents = t'.index.documents := by
  obtain ⟨os, t, ha, -, hi⟩ := (applyAll_ends c as hE hI ⟨⟨rfl, hf⟩, rfl⟩).exists_ok
  obtain ⟨os', t', hb, -, hi'⟩ := (applyAll_ends c bs hE hI ⟨⟨rfl, hf⟩, rfl⟩).exists_ok
  refine ⟨os, t, os', t', ha, hb, ?_⟩
  rw [hi, hi']
  exact reindex_congr hE h

end ChangeFeed.Updater

namespace ChangeFeed.Sample

open Updater

def oneBatch : List Call := [⟨100, [sorcererGone, placeGone], by decide⟩]

def twoBatches : List Call :=
  [⟨1, [placeGone], by decide⟩, ⟨2, [placeGone, sorcererGone], by decide⟩]

theorem applyAll_oneBatch_twoBatches :
    (∀ e, e ∈ eventsOf oneBatch ↔ e ∈ eventsOf twoBatches) ∧
      Documents.Keyed world.provider.documents ∧ world.provider.failing = [] ∧
      Documents.Keyed world.index.documents ∧
      ∃ os t os' t', applyAll containment oneBatch world = .ok os t ∧
        applyAll containment twoBatches world = .ok os' t' ∧
        t.index.documents = t'.index.documents := by
  have h : ∀ e, e ∈ eventsOf oneBatch ↔ e ∈ eventsOf twoBatches := by
    intro e
    simp [eventsOf, oneBatch, twoBatches, or_comm]
  exact ⟨h, keyed_entities, rfl, keyed_indexed,
    applyAll_eq_of_same_events containment h world keyed_entities rfl keyed_indexed⟩

end ChangeFeed.Sample
