import ChangeFeed.Proofs.Decoding
import ChangeFeed.Proofs.Log.Turns

namespace ChangeFeed

open Act

def LogModel.Decodes (m : LogModel) (r : LogRow) : Prop := ∀ e, ∃ es, m.events r e = .ok es

/-- Fetches from these tables answer rows that are in order and decode. The first fetch from a table finds
a row if one is waiting there. -/
def FetchWindow.Decodable {σ : Type} (fetch : FetchWindow σ) (models : List LogModel)
    (Waiting : LogModel → Prop) (In : σ → Prop) : Prop :=
  ∀ m ∈ models, ∀ after limit s, In s → Ends (fetch m after limit) s
    (fun rows t => (LogRow.Ascending rows ∧ (∀ r ∈ rows, Window.beyond after r ∧ m.Decodes r) ∧
      (after = none → 0 < limit → Waiting m → rows ≠ [])) ∧ In t)
    fun _ _ => False

variable {σ : Type} {fetch : FetchWindow σ} {models : List LogModel} {Waiting : LogModel → Prop}
  {In : σ → Prop}

def Window.Decodes (w : Window) : Prop := ∀ r ∈ w.rows, w.model.Decodes r

theorem Window.fill_decodes (hf : fetch.Decodable models Waiting In) {w : Window} (hrows : w.Decodes)
    (hw : w.model ∈ models) (size : Nat) {s : σ} (hs : In s) :
    Ends (w.fill fetch size) s
      (fun w' t => (w'.model = w.model ∧ w'.Decodes ∧
        (w.lastSeen = none → 0 < size → Waiting w.model → w'.rows ≠ [])) ∧ In t)
      fun _ _ => False := by
  rw [Window.fill]
  refine (hf w.model hw w.lastSeen size s hs).bind ?_
  rintro rows t ⟨⟨hasc, hall, hwaiting⟩, ht⟩
  rw [accept, ascend_eq hasc fun r hr => (hall r hr).1]
  refine ends_pure ⟨⟨rfl, fun r hr => ?_, fun hlast hsize hw => ?_⟩, ht⟩
  · rcases List.mem_append.1 hr with hr | hr
    · exact hrows r hr
    · exact (hall r hr).2
  · exact List.append_ne_nil_of_right_ne_nil _ (hwaiting hlast hsize hw)

namespace Merge

structure Decodes (models : List LogModel) (m : Merge) : Prop where
  opened : m.opened = true
  tables : m.windows.map (·.model) = models
  windows : ∀ w ∈ m.windows, w.Decodes

def Holding (m : Merge) : Prop := m.finished = false ∧ ∃ w ∈ m.windows, w.rows ≠ []

def CurrentDecodes (models : List LogModel) (m : Merge) : Prop :=
  ∃ d model, m.current = some d ∧ models[d.1]? = some model ∧ model.Decodes d.2

variable {m : Merge}

theorem Decodes.put (h : m.Decodes models) {i : Nat} {w w' : Window} (hw : m.windows[i]? = some w)
    (hrows : w'.Decodes) (hmodel : w'.model = w.model) (current : Option Delivery) :
    (m.put i w' current).Decodes models where
  opened := h.opened
  tables := (models_set hw hmodel).trans h.tables
  windows x hx := by
    rcases List.mem_or_eq_of_mem_set hx with hx | rfl
    · exact h.windows x hx
    · exact hrows

theorem start_decodes (hf : fetch.Decodable models Waiting In) (size : Nat) {s : σ} (hs : In s) :
    Ends (start fetch) (Merge.new models size, s)
      (fun _ t => (t.1.Decodes models ∧ ((∃ m ∈ models, Waiting m) → t.1.Holding)) ∧ In t.2)
      fun _ _ => False := by
  rw [start]
  refine ends_get_bind ?_
  have hfill : ∀ w ∈ (Merge.new models size).windows, ∀ s, In s →
      Ends (Window.fill fetch (Merge.new models size).size { model := w.model }) s
        (fun w' t => (w'.model = w.model ∧ w'.Decodes ∧ (Waiting w'.model → w'.rows ≠ [])) ∧ In t)
        fun _ _ => False := by
    intro w hw s hs
    obtain ⟨model, hmodel, rfl⟩ := List.mem_map.1 hw
    have hempty : Window.Decodes { model } := List.forall_mem_nil _
    have hsize : 0 < (Merge.new models size).size := Nat.lt_of_lt_of_le Nat.one_pos (Nat.le_max_right ..)
    refine (Window.fill_decodes hf hempty hmodel _ hs).mono ?_ fun _ _ h => h
    rintro w' t ⟨⟨hw', hdecodes, hwaiting⟩, ht⟩
    exact ⟨⟨hw', hdecodes, fun h => hwaiting rfl hsize (hw' ▸ h)⟩, ht⟩
  refine ((Ends.mapM hfill hs).onSnd (s := (Merge.new models size, s))).seq (fun _ _ h => h.1) ?_
  rintro ws ⟨m, t⟩ ⟨⟨⟨hmodels, hws⟩, ht⟩, hm⟩
  cases hm
  have htables : ws.map (·.model) = models := hmodels.trans (models_new models size)
  refine ends_modify ⟨⟨⟨rfl, htables, fun w hw => (hws w hw).1⟩, fun hwaiting => ⟨rfl, ?_⟩⟩, ht⟩
  obtain ⟨model, hmodel, hwaiting⟩ := hwaiting
  rw [← htables] at hmodel
  obtain ⟨w, hw, rfl⟩ := List.mem_map.1 hmodel
  exact ⟨w, hw, (hws w hw).2 hwaiting⟩

theorem next_decodes (hf : fetch.Decodable models Waiting In) (hm : m.Decodes models) {s : σ} (hs : In s) :
    Ends (next fetch) (m, s)
      (fun more t => (t.1.Decodes models ∧ (more = true → t.1.CurrentDecodes models) ∧
        (m.Holding → more = true)) ∧ In t.2)
      fun _ _ => False := by
  rw [Ends]
  by_cases hfin : m.finished = true
  · rw [next_of_finished fetch s hm.opened hfin]
    refine ⟨⟨hm, fun h => absurd h Bool.false_ne_true, fun hholding => ?_⟩, hs⟩
    cases hholding.1.symm.trans hfin
  rw [Bool.not_eq_true] at hfin
  cases hl : leastHead 0 m.windows with
  | none =>
      rw [next_of_none fetch s hm.opened hfin hl]
      refine ⟨⟨⟨hm.opened, hm.tables, hm.windows⟩, fun h => absurd h Bool.false_ne_true, ?_⟩, hs⟩
      rintro ⟨-, w, hw, hrows⟩
      exact absurd (leastHead_eq_none hl w hw) hrows
  | some d =>
      obtain ⟨i, row⟩ := d
      obtain ⟨k, w, rows, rfl, hw, hrows⟩ := (leastHead_eq_some hl).1
      rw [Nat.zero_add] at hl
      have hheld : ∀ r ∈ row :: rows, w.model.Decodes r :=
        hrows ▸ hm.windows w (List.mem_of_getElem? hw)
      obtain ⟨hrow, hleft⟩ := List.forall_mem_cons.1 hheld
      have htable : models[k]? = some w.model := by
        rw [← hm.tables, List.getElem?_map, hw]
        rfl
      have hleftover : Window.Decodes { w with rows } := hleft
      rw [next_of_some fetch s hm.opened hfin hl hw hrows]
      by_cases hfill : (rows.isEmpty && !w.exhausted) = true
      · have hfilled := Window.fill_decodes hf hleftover (List.mem_of_getElem? htable) m.size hs
        obtain ⟨w', t, he, ⟨hmodel, hdecodes, -⟩, ht⟩ := hfilled.exists_ok
        rw [if_pos hfill, he]
        exact ⟨⟨hm.put hw hdecodes hmodel _, fun _ => ⟨_, _, rfl, htable, hrow⟩, fun _ => rfl⟩, ht⟩
      · rw [if_neg hfill]
        exact ⟨⟨hm.put hw hleftover rfl _, fun _ => ⟨_, _, rfl, htable, hrow⟩, fun _ => rfl⟩, hs⟩

theorem foldRows_decodes {β : Type} {step : β → Delivery → Except Failure β} {Taken : β → Prop}
    (hstep : ∀ acc d model, models[d.1]? = some model → model.Decodes d.2 →
      ∃ acc', step acc d = .ok acc' ∧ Taken acc')
    (hf : fetch.Decodable models Waiting In) (n : Nat) (acc : β) (hm : m.Decodes models) {s : σ}
    (hs : In s) :
    Ends (foldRows fetch step n acc) (m, s)
      (fun acc' t => (Taken acc ∨ 0 < n ∧ m.Holding → Taken acc') ∧ In t.2) fun _ _ => False := by
  induction n generalizing m s acc with
  | zero => exact ends_pure ⟨fun h => h.resolve_right fun h => Nat.lt_irrefl 0 h.1, hs⟩
  | succ n ih =>
      rw [foldRows]
      refine (next_decodes hf hm hs).bind ?_
      rintro more ⟨m', t⟩ ⟨⟨hm', hcurrent, hmore⟩, ht⟩
      cases more with
      | false =>
          exact ends_pure ⟨fun h => h.resolve_right fun h => Bool.false_ne_true (hmore h.2), ht⟩
      | true =>
          obtain ⟨d, model, hd, htable, hdecodes⟩ := hcurrent rfl
          obtain ⟨acc', hacc, htaken⟩ := hstep acc d model htable hdecodes
          have hnext : (m'.current? >>= step acc) = .ok acc' := by
            rw [current?, hd]
            exact hacc
          refine ends_get_bind ?_
          dsimp only
          rw [hnext]
          exact (ih acc' hm' ht).mono (fun _ _ h => ⟨fun _ => h.1 (.inl htaken), h.2⟩) fun _ _ h => h

end Merge

/-- A poller collects a batch of rows that decode, and not an empty one if a row is waiting. -/
theorem Poller.collect_of_decodable {κ : Type} {p : Poller κ} {S : LogStore σ}
    (hf : FetchWindow.Decodable S.fetch p.models Waiting In) {s : σ} (hs : In s) :
    Ends (p.collect S) s
      (fun b t => (0 < p.config.batchSize → (∃ m ∈ p.models, Waiting m) → b.rows ≠ []) ∧ In t)
      fun _ _ => False := by
  refine collect_ends_of_read ((Merge.start_decodes hf p.config.windowSize hs).bind ?_)
  rintro _ ⟨m, t⟩ ⟨⟨hm, hholding⟩, ht⟩
  have hstep (b : Batch) (d : Delivery) (model : LogModel) (hmodel : p.models[d.1]? = some model)
      (hdecodes : model.Decodes d.2) : ∃ b', b.add p.models d = .ok b' ∧ b'.rows ≠ [] := by
    obtain ⟨es, hes⟩ : ∃ es, d.events p.models = .ok es := by
      rw [Delivery.events, hmodel]
      cases hcode : d.2.eventType? with
      | none => exact ⟨[], rfl⟩
      | some e => exact hdecodes e
    obtain ⟨b', hb⟩ := Batch.add_of_events hes b
    exact ⟨b', hb, by simp [Batch.rows_of_add hb]⟩
  refine (Merge.foldRows_decodes hstep hf _ {} hm ht).mono ?_ fun _ _ h => h
  rintro b t' ⟨htaken, ht'⟩
  exact ⟨fun hpos hwaiting => htaken (.inr ⟨hpos, hholding hwaiting⟩), ht'⟩

end ChangeFeed
