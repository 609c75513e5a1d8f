import ChangeFeed.Proofs.Log.Reading
import Mathlib.Data.List.Forall2

namespace ChangeFeed

open Act

variable {σ : Type}

structure Fetched where
  model : LogModel
  after : Option Int64
  limit : Nat
  answer : Except Failure (List LogRow)

namespace Fetched

def rows (f : Fetched) : List LogRow :=
  match f.answer with
  | .ok rows => rows
  | .error _ => []

/-- The fetch succeeded, and its table has no more rows than it returned. -/
def Short (f : Fetched) : Prop := ∃ rows, f.answer = .ok rows ∧ rows.length < f.limit

/-- The rows that were fetched ascend, and come after the id that was asked for. -/
def Orderly (f : Fetched) : Prop := LogRow.Ascending f.rows ∧ ∀ r ∈ f.rows, Window.beyond f.after r

instance (f : Fetched) : Decidable f.Orderly :=
  inferInstanceAs (Decidable (f.rows.Pairwise (·.sequence < ·.sequence) ∧
    ∀ r ∈ f.rows, Window.beyond f.after r = true))

end Fetched

def FetchWindow.noted (fetch : FetchWindow σ) : FetchWindow (σ × List Fetched) :=
  fun model after limit t =>
    match fetch model after limit t.1 with
    | .ok rows s => .ok rows (s, t.2 ++ [⟨model, after, limit, .ok rows⟩])
    | .error e s => .error e (s, t.2 ++ [⟨model, after, limit, .error e⟩])

namespace Window

theorem fill_apply (fetch : FetchWindow σ) (size : Nat) (w : Window) (s : σ) :
    w.fill fetch size s = match fetch w.model w.lastSeen size s with
      | .ok rows t => (match w.accept size rows with
        | .ok w' => .ok w' t
        | .error e => .error e t)
      | .error e t => .error e t := by
  rw [fill, bind_apply]
  cases fetch w.model w.lastSeen size s with
  | ok rows t =>
      dsimp only
      cases w.accept size rows <;> rfl
  | error e t => rfl

theorem ascend_ok {rows : List LogRow} {last last' : Option Int64} (h : ascend last rows = .ok last') :
    LogRow.Ascending rows ∧ (∀ r ∈ rows, beyond last r) ∧ last' = lastOf last rows := by
  induction rows generalizing last with
  | nil =>
      cases h
      exact ⟨.nil, by simp, rfl⟩
  | cons r rows ih =>
      rw [ascend] at h
      by_cases hr : last.any (r.sequence ≤ ·)
      · rw [if_pos hr] at h
        cases h
      · rw [if_neg hr] at h
        obtain ⟨hasc, hbeyond, rfl⟩ := ih h
        have hlast : beyond last r := by
          cases last with
          | none => rfl
          | some n => simpa [beyond, Int64.not_le] using hr
        have hafter : ∀ s ∈ rows, r.sequence < s.sequence := fun s hs => by
          simpa [beyond] using hbeyond s hs
        refine ⟨List.pairwise_cons.2 ⟨hafter, hasc⟩, List.forall_mem_cons.2 ⟨hlast, ?_⟩, rfl⟩
        intro s hs
        cases last with
        | none => rfl
        | some n =>
            have hn : n < r.sequence := by simpa [beyond] using hlast
            simpa [beyond] using Int64.lt_trans hn (hafter s hs)

theorem accept_ok {size : Nat} {rows : List LogRow} {w w' : Window} (h : w.accept size rows = .ok w') :
    LogRow.Ascending rows ∧ (∀ r ∈ rows, beyond w.lastSeen r) ∧
      w' = ⟨w.model, w.rows ++ rows, lastOf w.lastSeen rows, rows.length < size⟩ := by
  rw [accept] at h
  cases hl : ascend w.lastSeen rows with
  | error r =>
      rw [hl] at h
      cases h
  | ok last =>
      rw [hl] at h
      cases h
      obtain ⟨hasc, hbeyond, rfl⟩ := ascend_ok hl
      exact ⟨hasc, hbeyond, rfl⟩

end Window

namespace Merge

/-- One call: the row that it takes out of its window, what it fetches, how it ends, and the row that is
current after it. -/
structure Turn where
  taken : Option Delivery
  fetches : List Fetched
  result : Except Failure Bool
  current : Option Delivery

def turn (fetch : FetchWindow σ) (t : Merge × σ) : Turn where
  taken := leastHead 0 t.1.windows
  fetches := ((next fetch.noted).outcome (t.1, t.2, [])).2.2.2
  result := ((next fetch).outcome t).1
  current := ((next fetch).outcome t).2.1.current

def turns (fetch : FetchWindow σ) : Nat → Merge × σ → List Turn
  | 0, _ => []
  | n + 1, t => turn fetch t :: turns fetch n ((next fetch).outcome t).2

def opening (fetch : FetchWindow σ) (models : List LogModel) (size : Nat) (s : σ) : List Fetched :=
  ((start fetch.noted).outcome (Merge.new models size, s, [])).2.2.2

def put (m : Merge) (i : Nat) (w : Window) (current : Option Delivery) : Merge :=
  { m with windows := m.windows.set i w, current }

theorem models_new (models : List LogModel) (size : Nat) :
    (Merge.new models size).windows.map (·.model) = models := by
  rw [Merge.new, List.map_map]
  exact List.map_id _

theorem models_set {ws : List Window} {i : Nat} {w w' : Window} (hw : ws[i]? = some w)
    (hmodel : w'.model = w.model) : (ws.set i w').map (·.model) = ws.map (·.model) := by
  obtain ⟨hi, rfl⟩ := List.getElem?_eq_some_iff.1 hw
  rw [List.map_set, hmodel, ← List.getElem_map (fun w : Window => w.model), List.set_getElem_self]
  simpa using hi

/-- All that a call of an open merge can do. -/
inductive Step : Merge → Turn → Merge → Prop
  | ended {m : Merge} (hfin : m.finished = true) :
      Step m ⟨leastHead 0 m.windows, [], .ok false, m.current⟩ m
  | last {m : Merge} (hfin : m.finished = false) (hl : leastHead 0 m.windows = none) :
      Step m ⟨none, [], .ok false, none⟩ { m with current := none, finished := true }
  | held {m : Merge} {i : Nat} {w : Window} {row : LogRow} {rows : List LogRow}
      (hfin : m.finished = false) (hl : leastHead 0 m.windows = some (i, row))
      (hw : m.windows[i]? = some w) (hrows : w.rows = row :: rows)
      (hkeep : rows = [] → w.exhausted = true) :
      Step m ⟨some (i, row), [], .ok true, some (i, row)⟩
        (m.put i { w with rows } (some (i, row)))
  | filled {m : Merge} {i : Nat} {w w' : Window} {row : LogRow} {fetched : List LogRow}
      (hfin : m.finished = false) (hl : leastHead 0 m.windows = some (i, row))
      (hw : m.windows[i]? = some w) (hrows : w.rows = [row]) (hmore : w.exhausted = false)
      (haccept : { w with rows := [] }.accept m.size fetched = .ok w') :
      Step m ⟨some (i, row), [⟨w.model, w.lastSeen, m.size, .ok fetched⟩], .ok true, some (i, row)⟩
        (m.put i w' (some (i, row)))
  | failed {m : Merge} {i : Nat} {w : Window} {row : LogRow} {answer : Except Failure (List LogRow)}
      {e : Failure} (hfin : m.finished = false) (hl : leastHead 0 m.windows = some (i, row))
      (hw : m.windows[i]? = some w) (hrows : w.rows = [row]) (hmore : w.exhausted = false)
      (hfail : answer.bind ({ w with rows := [] }.accept m.size) = .error e) :
      Step m ⟨some (i, row), [⟨w.model, w.lastSeen, m.size, answer⟩], .error e, m.current⟩
        (m.put i { w with rows := [] } m.current)

section

variable {m : Merge} (fetch : FetchWindow σ) (s : σ) (hopen : m.opened = true)
include hopen

theorem next_of_finished (hfin : m.finished = true) : next fetch (m, s) = .ok false (m, s) := by
  rw [next, bind_apply]
  show (if ¬m.opened = true then _ else _ : Act (Merge × σ) Bool) (m, s) = _
  rw [if_neg (by simp [hopen])]
  show (if m.finished = true then _ else _ : Act (Merge × σ) Bool) (m, s) = _
  rw [if_pos hfin]
  rfl

theorem next_of_none (hfin : m.finished = false) (hl : leastHead 0 m.windows = none) :
    next fetch (m, s) = .ok false ({ m with current := none, finished := true }, s) := by
  rw [next, bind_apply]
  show (if ¬m.opened = true then _ else _ : Act (Merge × σ) Bool) (m, s) = _
  rw [if_neg (by simp [hopen])]
  show (if m.finished = true then _ else _ : Act (Merge × σ) Bool) (m, s) = _
  rw [if_neg (by simp [hfin])]
  simp only [hl]
  rfl

theorem next_of_some (hfin : m.finished = false) {i : Nat} {w : Window} {row : LogRow}
    {rows : List LogRow} (hl : leastHead 0 m.windows = some (i, row)) (hw : m.windows[i]? = some w)
    (hrows : w.rows = row :: rows) :
    next fetch (m, s) =
      if rows.isEmpty && !w.exhausted then
        match ({ w with rows } : Window).fill fetch m.size s with
        | .ok w' t => .ok true (m.put i w' (some (i, row)), t)
        | .error e t => .error e (m.put i { w with rows } m.current, t)
      else .ok true (m.put i { w with rows } (some (i, row)), s) := by
  have hpop : (m.windows.modify i fun w => { w with rows := w.rows.tail }) =
      m.windows.set i { w with rows } := by
    rw [modify_eq_set _ hw, hrows]
    rfl
  have hat : (m.windows.set i { w with rows })[i]? = some { w with rows } :=
    List.getElem?_set_self (List.getElem?_eq_some_iff.1 hw).1
  rw [next, bind_apply]
  show (if ¬m.opened = true then _ else _ : Act (Merge × σ) Bool) (m, s) = _
  rw [if_neg (by simp [hopen])]
  show (if m.finished = true then _ else _ : Act (Merge × σ) Bool) (m, s) = _
  rw [if_neg (by simp [hfin])]
  simp only [hl, hpop, hat]
  rw [bind_apply]
  show (if _ then _ else _ : Act (Merge × σ) Bool) ({ m with windows := m.windows.set i _ }, s) = _
  split
  next =>
    rw [bind_apply, Act.onSnd]
    cases Window.fill fetch m.size { w with rows } s with
    | ok w' t =>
        simp only [List.set_set]
        rfl
    | error e t => rfl
  next => rfl

theorem step_turn :
    Step m (turn fetch (m, s)) ((next fetch).outcome (m, s)).2.1 := by
  by_cases hfin : m.finished = true
  · simp only [turn, outcome, next_of_finished _ _ hopen hfin]
    exact .ended hfin
  rw [Bool.not_eq_true] at hfin
  cases hl : leastHead 0 m.windows with
  | none =>
      simp only [turn, outcome, next_of_none _ _ hopen hfin hl, hl]
      exact .last hfin hl
  | some d =>
      obtain ⟨i, row⟩ := d
      obtain ⟨k, w, rows, rfl, hw, hrows⟩ := (leastHead_eq_some hl).1
      rw [Nat.zero_add] at hl
      simp only [turn, outcome, next_of_some _ _ hopen hfin hl hw hrows, hl]
      by_cases hfill : (rows.isEmpty && !w.exhausted) = true
      · simp only [if_pos hfill, Window.fill_apply, FetchWindow.noted]
        rw [Bool.and_eq_true, List.isEmpty_iff, Bool.not_eq_true'] at hfill
        obtain ⟨rfl, hmore⟩ := hfill
        cases fetch w.model w.lastSeen m.size s with
        | error e t => exact .failed hfin hl hw hrows hmore rfl
        | ok fetched t =>
            dsimp only
            cases haccept : ({ w with rows := [] } : Window).accept m.size fetched with
            | error e => exact .failed hfin hl hw hrows hmore haccept
            | ok w' => exact .filled hfin hl hw hrows hmore haccept
      · simp only [if_neg hfill]
        refine .held hfin hl hw hrows ?_
        rintro rfl
        simpa using hfill

end

/-- What the first fetch of a table leaves of its window. -/
def Begun (size : Nat) (f : Fetched) (w : Window) : Prop :=
  ∃ rows, f = ⟨w.model, none, size, .ok rows⟩ ∧ ({ model := w.model } : Window).accept size rows = .ok w

theorem begun_mapM {fetch : FetchWindow σ} {size : Nat} {ws ws' : List Window} {s t : σ}
    (h : (ws.mapM fun w => Window.fill fetch size { model := w.model }) s = .ok ws' t)
    (noted : List Fetched) :
    ∃ fs, (ws.mapM fun w => Window.fill fetch.noted size { model := w.model }) (s, noted) =
        .ok ws' (t, noted ++ fs) ∧ List.Forall₂ (Begun size) fs ws' ∧ ws'.length = ws.length := by
  induction ws generalizing s ws' noted with
  | nil =>
      cases h
      exact ⟨[], by rw [List.append_nil]; rfl, .nil, rfl⟩
  | cons w ws ih =>
      rw [mapM_cons_apply, Window.fill_apply] at h
      cases hfetch : fetch w.model none size s with
      | error e s' =>
          simp only [hfetch] at h
          cases h
      | ok rows s' =>
          cases haccept : ({ model := w.model } : Window).accept size rows with
          | error e =>
              simp only [hfetch, haccept] at h
              cases h
          | ok first =>
              simp only [hfetch, haccept] at h
              cases hrest : (ws.mapM fun w => Window.fill fetch size { model := w.model }) s' with
              | error e t' =>
                  simp only [hrest] at h
                  cases h
              | ok later t' =>
                  simp only [hrest] at h
                  cases h
                  obtain ⟨fs, hnoted, hfs, hl⟩ := ih hrest (noted ++ [⟨w.model, none, size, .ok rows⟩])
                  have hfirst : first.model = w.model := by rw [(Window.accept_ok haccept).2.2]
                  refine ⟨⟨w.model, none, size, .ok rows⟩ :: fs, ?_, .cons ?_ hfs, congrArg (· + 1) hl⟩
                  · rw [mapM_cons_apply, Window.fill_apply]
                    simp only [FetchWindow.noted, hfetch, haccept]
                    rw [hnoted, List.append_assoc]
                    rfl
                  · exact ⟨rows, by rw [hfirst], by rw [hfirst]; exact haccept⟩

section

variable {fetch : FetchWindow σ} {models : List LogModel} {size : Nat} {s t : σ}

theorem start_of_ok {ws : List Window} (h : ((Merge.new models size).windows.mapM fun w =>
      Window.fill fetch (Merge.new models size).size { model := w.model }) s = .ok ws t) :
    start fetch (Merge.new models size, s) =
      .ok () ({ Merge.new models size with windows := ws, opened := true }, t) := by
  show (Act.onSnd _ >>= _ : Act (Merge × σ) Unit) (Merge.new models size, s) = _
  rw [bind_apply, Act.onSnd]
  dsimp only
  rw [h]
  rfl

theorem start_of_error {e : Failure} (h : ((Merge.new models size).windows.mapM fun w =>
      Window.fill fetch (Merge.new models size).size { model := w.model }) s = .error e t) :
    start fetch (Merge.new models size, s) = .error e (Merge.new models size, t) := by
  show (Act.onSnd _ >>= _ : Act (Merge × σ) Unit) (Merge.new models size, s) = _
  rw [bind_apply, Act.onSnd]
  dsimp only
  rw [h]

theorem start_ok {m : Merge} (h : start fetch (Merge.new models size, s) = .ok () (m, t)) :
    m.opened = true ∧ m.finished = false ∧ m.size = max size 1 ∧
      List.Forall₂ (Begun m.size) (opening fetch models size s) m.windows ∧
      m.windows.length = models.length := by
  cases hws : ((Merge.new models size).windows.mapM fun w =>
      Window.fill fetch (Merge.new models size).size { model := w.model }) s with
  | error e t' =>
      rw [start_of_error hws] at h
      cases h
  | ok ws t' =>
      rw [start_of_ok hws] at h
      cases h
      obtain ⟨fs, hnoted, hfs, hlength⟩ := begun_mapM hws []
      have hopening : opening fetch models size s = fs := by
        simp only [opening, outcome, start_of_ok hnoted, List.nil_append]
      exact ⟨rfl, rfl, rfl, hopening ▸ hfs, hlength.trans (List.length_map _)⟩

end

end Merge

end ChangeFeed
