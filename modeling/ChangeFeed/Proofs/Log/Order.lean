import ChangeFeed.Proofs.Log.Retry

namespace ChangeFeed

open Act

variable {σ : Type}

namespace Window

theorem kind_of_accept_error {size : Nat} {rows : List LogRow} {w : Window} {e : Failure}
    (h : w.accept size rows = .error e) : e.kind = .database := by
  rw [accept] at h
  cases hl : ascend w.lastSeen rows with
  | error r =>
      rw [hl] at h
      cases h
      rfl
  | ok last =>
      rw [hl] at h
      cases h

theorem fill_noted (fetch : FetchWindow σ) (size : Nat) (w : Window) (s : σ) (noted : List Fetched) :
    ∃ f : Fetched, f.model = w.model ∧ f.after = w.lastSeen ∧
      w.fill fetch.noted size (s, noted) = (match w.fill fetch size s with
        | .ok w' t => .ok w' (t, noted ++ [f])
        | .error e t => .error e (t, noted ++ [f])) ∧
      (¬ f.Orderly → ∃ e t, w.fill fetch size s = .error e t ∧ e.kind = .database) := by
  simp only [fill_apply, FetchWindow.noted]
  cases fetch w.model w.lastSeen size s with
  | error e t =>
      exact ⟨⟨w.model, w.lastSeen, size, .error e⟩, rfl, rfl, rfl,
        fun h => absurd ⟨List.Pairwise.nil, List.forall_mem_nil _⟩ h⟩
  | ok rows t =>
      refine ⟨⟨w.model, w.lastSeen, size, .ok rows⟩, rfl, rfl, ?_⟩
      dsimp only
      cases haccept : w.accept size rows with
      | error e => exact ⟨rfl, fun _ => ⟨e, t, rfl, kind_of_accept_error haccept⟩⟩
      | ok w' =>
          obtain ⟨hasc, hbeyond, -⟩ := accept_ok haccept
          exact ⟨rfl, fun h => absurd ⟨hasc, hbeyond⟩ h⟩

end Window

namespace Merge

inductive Request where
  | start
  | next

def starting (fetch : FetchWindow σ) (t : Merge × σ) : Turn where
  taken := none
  fetches := ((start fetch.noted).outcome (t.1, t.2, [])).2.2.2
  result := ((start fetch).outcome t).1.map fun _ => false
  current := ((start fetch).outcome t).2.1.current

namespace Request

def turn (fetch : FetchWindow σ) : Request → Merge × σ → Turn
  | .start, t => starting fetch t
  | .next, t => Merge.turn fetch t

def after (fetch : FetchWindow σ) : Request → Merge × σ → Merge × σ
  | .start, t => ((Merge.start fetch).outcome t).2
  | .next, t => ((Merge.next fetch).outcome t).2

end Request

def session (fetch : FetchWindow σ) : List Request → Merge × σ → List Turn
  | [], _ => []
  | r :: rs, t => r.turn fetch t :: session fetch rs (r.after fetch t)

namespace Turn

/-- What a call fetches from the table at a position. A call that takes a row fetches from the table of
that row, and one that takes none fetches from the tables in their order. -/
def fetchedFrom (t : Turn) (i : Nat) : List Fetched :=
  match t.taken with
  | none => t.fetches[i]?.toList
  | some _ => t.fetchesAt i

def rowsFrom (t : Turn) (i : Nat) : List LogRow := (t.fetchedFrom i).flatMap (·.rows)

/-- The rows that a call takes in from the table at a position. A call that failed takes in none. -/
def acceptedAt (t : Turn) (i : Nat) : List LogRow :=
  match t.result with
  | .ok _ => t.rowsFrom i
  | .error _ => []

/-- The call should have opened the merge and failed. The next one that opens it starts over. -/
def NotBegun (t : Turn) : Prop := t.taken = none ∧ ∃ e, t.result = .error e

/-- The same call, in which the rows that it turned down were never answered. -/
def trimmed (t : Turn) : Turn :=
  match t.result with
  | .ok _ => t
  | .error e => { t with fetches := t.fetches.map fun f => { f with answer := .error e } }

variable {t : Turn}

theorem taken_trimmed (t : Turn) : t.trimmed.taken = t.taken := by
  rw [trimmed]
  split <;> rfl

theorem result_trimmed (t : Turn) : t.trimmed.result = t.result := by
  rw [trimmed]
  split <;> rfl

theorem lost_trimmed (t : Turn) : t.trimmed.lost = t.lost := by
  rw [lost, lost, result_trimmed, taken_trimmed]

theorem rows_trimmed (h : t.taken = none → t.fetches = []) (i : Nat) :
    (t.trimmed.fetchesAt i).flatMap (·.rows) = t.acceptedAt i := by
  cases hr : t.result with
  | ok more =>
      simp only [trimmed, acceptedAt, rowsFrom, fetchedFrom, hr]
      cases ht : t.taken with
      | none => simp [fetchesAt, ht, h ht]
      | some d => rfl
  | error e =>
      simp only [trimmed, acceptedAt, hr, fetchesAt]
      split
      · simp [Fetched.rows]
      · rfl

theorem acceptedAt_eq {i : Nat} (h : ∀ d ∈ t.lost, d.1 ≠ i) :
    t.acceptedAt i = t.rowsFrom i ∨ t.NotBegun := by
  cases hr : t.result with
  | ok more => exact .inl (by rw [acceptedAt, hr])
  | error e =>
      cases ht : t.taken with
      | none => exact .inr ⟨ht, e, hr⟩
      | some d =>
          have hd : d.1 ≠ i := h d (by rw [lost, hr, ht]; rfl)
          refine .inl ?_
          simp [acceptedAt, rowsFrom, fetchedFrom, fetchesAt, hr, ht, hd]

end Turn

def acceptedAt (H : List Turn) (i : Nat) : List LogRow := H.flatMap (·.acceptedAt i)

def deliveredAt (H : List Turn) (i : Nat) : List LogRow :=
  (deliveredIn H).filterMap fun d => if d.1 = i then some d.2 else none

/-- A call that comes after others. It asks a table for what comes after the last row that was fetched
from it, not counting openings that failed. If it is answered rows that are not in order, it fails. -/
structure Checked (models : List LogModel) (past : List Turn) (t : Turn) : Prop where
  asked : ∀ i, ∀ f ∈ t.fetchedFrom i, models[i]? = some f.model ∧
    f.after = Window.lastOf none (acceptedAt past i) ∧
    ∀ u ∈ past, u.acceptedAt i = u.rowsFrom i ∨ u.NotBegun
  rejected : (∃ f ∈ t.fetches, ¬ f.Orderly) → ∃ e, t.result = .error e ∧ e.kind = .database

variable {m m' : Merge} {t : Turn} {past : List Turn} {models : List LogModel} {size : Nat}

theorem Step.taken_eq (h : Step m t m') : t.taken = leastHead 0 m.windows := by
  cases h with
  | ended => rfl
  | last hfin hl => exact hl.symm
  | held hfin hl | filled hfin hl | failed hfin hl => exact hl.symm

theorem Step.idle (h : Step m t m') (ht : t.taken = none) : t.fetches = [] := by
  cases h with
  | ended | last | held => rfl
  | filled | failed => cases ht

theorem Step.asked (h : Step m t m') {i : Nat} {f : Fetched} (hf : f ∈ t.fetchesAt i) :
    ∃ w, m.windows[i]? = some w ∧ w.rows ≠ [] ∧ f.model = w.model ∧ f.after = w.lastSeen := by
  rw [Turn.fetchesAt] at hf
  split at hf
  next hi =>
    cases h with
    | ended | last | held => cases hf
    | filled hfin hl hw hrows | failed hfin hl hw hrows =>
        cases hi
        cases List.mem_singleton.1 hf
        exact ⟨_, hw, by simp [hrows], rfl, rfl⟩
  next => cases hf

theorem Step.rejected (h : Step m t m') (hf : ∃ f ∈ t.fetches, ¬ f.Orderly) :
    ∃ e, t.result = .error e ∧ e.kind = .database := by
  obtain ⟨f, hf, hdisorder⟩ := hf
  cases h with
  | ended | last | held => cases hf
  | filled hfin hl hw hrows hmore haccept =>
      cases List.mem_singleton.1 hf
      obtain ⟨hasc, hbeyond, -⟩ := Window.accept_ok haccept
      exact absurd ⟨hasc, hbeyond⟩ hdisorder
  | @failed i w row answer e hfin hl hw hrows hmore hfail =>
      cases List.mem_singleton.1 hf
      cases answer with
      | error e' => exact absurd ⟨List.Pairwise.nil, List.forall_mem_nil _⟩ hdisorder
      | ok rows => exact ⟨e, rfl, Window.kind_of_accept_error hfail⟩

theorem Step.trimmed (h : Step m t m') :
    Step m t.trimmed m' ∧ ∀ f ∈ t.trimmed.fetches, f.Orderly := by
  cases h with
  | ended hfin => exact ⟨.ended hfin, List.forall_mem_nil _⟩
  | last hfin hl => exact ⟨.last hfin hl, List.forall_mem_nil _⟩
  | held hfin hl hw hrows hkeep => exact ⟨.held hfin hl hw hrows hkeep, List.forall_mem_nil _⟩
  | filled hfin hl hw hrows hmore haccept =>
      obtain ⟨hasc, hbeyond, -⟩ := Window.accept_ok haccept
      exact ⟨.filled hfin hl hw hrows hmore haccept, List.forall_mem_singleton.2 ⟨hasc, hbeyond⟩⟩
  | failed hfin hl hw hrows hmore hfail =>
      exact ⟨.failed hfin hl hw hrows hmore rfl,
        List.forall_mem_singleton.2 ⟨.nil, List.forall_mem_nil _⟩⟩

theorem Step.tables (h : Step m t m') : m'.windows.map (·.model) = m.windows.map (·.model) := by
  cases h with
  | ended | last => rfl
  | held hfin hl hw => exact models_set hw rfl
  | filled hfin hl hw hrows hmore haccept =>
      exact models_set hw (by rw [(Window.accept_ok haccept).2.2])
  | failed hfin hl hw => exact models_set hw rfl

theorem acceptedAt_concat (past : List Turn) (t : Turn) (i : Nat) :
    acceptedAt (past ++ [t]) i = acceptedAt past i ++ t.acceptedAt i := by
  simp [acceptedAt]

/-- Where the calls of a merge have got to: it was never opened, and nothing was taken in, or the account
of an open merge is of the rows that were taken in. -/
inductive Stage (models : List LogModel) (size : Nat) (past : List Turn) : Merge → Prop
  | unopened (haccepted : ∀ i, acceptedAt past i = []) (htaken : takenIn past = []) :
      Stage models size past (Merge.new models size)
  | opened {m : Merge} {begun : List Fetched} {later : List Turn} (h : Accounts begun later m)
      (haccepted : ∀ i, rowsAt begun later i = acceptedAt past i) (htaken : takenIn later = takenIn past)
      (hlost : lostIn later = lostIn past) : Stage models size past m

structure Known (models : List LogModel) (size : Nat) (past : List Turn) (m : Merge) : Prop where
  stage : Stage models size past m
  tables : m.windows.map (·.model) = models
  order : (takenIn past).Pairwise Delivery.lt
  delivered : ∀ t ∈ past, ∀ d ∈ t.delivered, t.taken = some d

theorem start_of_opened (fetch : FetchWindow σ) (s : σ) (hopen : m.opened = true) :
    start fetch (m, s) = .error .alreadyOpen (m, s) := by
  rw [start, bind_apply]
  show (if m.opened = true then _ else _ : Act (Merge × σ) Unit) (m, s) = _
  rw [if_pos hopen]
  rfl

theorem next_of_unopened (fetch : FetchWindow σ) (s : σ) (hopen : m.opened = false) :
    next fetch (m, s) = .error .notOpen (m, s) := by
  rw [next, bind_apply]
  show (if ¬m.opened = true then _ else _ : Act (Merge × σ) Bool) (m, s) = _
  rw [if_pos (by simp [hopen])]
  rfl

theorem noted_mapM (fetch : FetchWindow σ) (size : Nat) (ws : List Window) (s : σ)
    (noted : List Fetched) : ∃ fs : List Fetched,
      (ws.mapM fun w => Window.fill fetch.noted size { model := w.model }) (s, noted) =
        (match (ws.mapM fun w => Window.fill fetch size { model := w.model }) s with
        | .ok ws' t => .ok ws' (t, noted ++ fs)
        | .error e t => .error e (t, noted ++ fs)) ∧
      (∀ (i : Nat) (f : Fetched), fs[i]? = some f →
        f.after = none ∧ (ws.map (·.model))[i]? = some f.model) ∧
      ((∃ f ∈ fs, ¬ f.Orderly) → ∃ e t,
        (ws.mapM fun w => Window.fill fetch size { model := w.model }) s = .error e t ∧
          e.kind = .database) := by
  induction ws generalizing s noted with
  | nil => exact ⟨[], by rw [List.append_nil]; rfl, by simp, by simp⟩
  | cons w ws ih =>
      obtain ⟨f, hmodel, hafter, hnoted, hrejected⟩ :=
        Window.fill_noted fetch size { model := w.model } s noted
      rw [mapM_cons_apply, mapM_cons_apply, hnoted]
      cases hfill : Window.fill fetch size { model := w.model } s with
      | error e t =>
          refine ⟨[f], rfl, ?_, ?_⟩
          · intro i g hg
            cases i with
            | zero =>
                cases hg
                exact ⟨hafter, congrArg some hmodel.symm⟩
            | succ i => cases hg
          · rintro ⟨g, hg, hdisorder⟩
            cases List.mem_singleton.1 hg
            obtain ⟨e', t', he, hkind⟩ := hrejected hdisorder
            cases hfill.symm.trans he
            exact ⟨e, t, rfl, hkind⟩
      | ok w' t =>
          obtain ⟨fs, hrest, hat, hlater⟩ := ih t (noted ++ [f])
          refine ⟨f :: fs, ?_, ?_, ?_⟩
          · dsimp only
            rw [hrest]
            simp only [List.append_assoc, List.singleton_append]
            cases (ws.mapM fun w => Window.fill fetch size { model := w.model }) t <;> rfl
          · intro i g hg
            cases i with
            | zero =>
                cases hg
                exact ⟨hafter, congrArg some hmodel.symm⟩
            | succ i => exact hat i g hg
          · rintro ⟨g, hg, hdisorder⟩
            have hg : g ∈ fs := by
              rcases List.mem_cons.1 hg with rfl | hg
              · obtain ⟨e, t', he, -⟩ := hrejected hdisorder
                cases hfill.symm.trans he
              · exact hg
            obtain ⟨e, t', he, hkind⟩ := hlater ⟨g, hg, hdisorder⟩
            exact ⟨e, t', by dsimp only; rw [he], hkind⟩

theorem starting_new (fetch : FetchWindow σ) (models : List LogModel) (size : Nat) (s : σ) :
    (∀ (i : Nat) (f : Fetched), (starting fetch (Merge.new models size, s)).fetches[i]? = some f →
      f.after = none ∧ models[i]? = some f.model) ∧
    ((∃ f ∈ (starting fetch (Merge.new models size, s)).fetches, ¬ f.Orderly) →
      ∃ e, (starting fetch (Merge.new models size, s)).result = .error e ∧ e.kind = .database) := by
  obtain ⟨fs, hnoted, hat, hrejected⟩ :=
    noted_mapM fetch (Merge.new models size).size (Merge.new models size).windows s []
  rw [List.nil_append] at hnoted
  rw [models_new] at hat
  cases hws : ((Merge.new models size).windows.mapM fun w =>
      Window.fill fetch (Merge.new models size).size { model := w.model }) s with
  | ok ws t =>
      rw [hws] at hnoted hrejected
      simp only [starting, outcome, start_of_ok hws, start_of_ok hnoted]
      refine ⟨hat, fun h => ?_⟩
      obtain ⟨e, t', he, -⟩ := hrejected h
      cases he
  | error e t =>
      rw [hws] at hnoted hrejected
      simp only [starting, outcome, start_of_error hws, start_of_error hnoted]
      refine ⟨hat, fun h => ?_⟩
      obtain ⟨e', t', he, hkind⟩ := hrejected h
      cases he
      exact ⟨e, rfl, hkind⟩

theorem start_new_ends (fetch : FetchWindow σ) (models : List LogModel) (size : Nat) (s : σ) :
    Ends (start fetch) (Merge.new models size, s) (fun _ t => t.1.windows.map (·.model) = models)
      fun _ t => t.1 = Merge.new models size := by
  have hfill (w : Window) (s : σ) (_ : True) :
      Ends (Window.fill fetch (Merge.new models size).size { model := w.model }) s
        (fun w' _ => (w'.model = w.model ∧ True) ∧ True) fun _ _ => True := by
    rw [Ends, Window.fill_apply]
    cases fetch w.model none (Merge.new models size).size s with
    | error e t => trivial
    | ok rows t =>
        dsimp only
        cases haccept : ({ model := w.model } : Window).accept (Merge.new models size).size rows with
        | error e => trivial
        | ok w' => exact ⟨⟨by rw [(Window.accept_ok haccept).2.2], trivial⟩, trivial⟩
  rw [start]
  refine ends_get_bind ?_
  refine ((Ends.mapM (fun w (_ : w ∈ (Merge.new models size).windows) => hfill w) trivial).onSnd
    (s := (Merge.new models size, s))).seq (fun _ _ h => h.2) ?_
  rintro ws ⟨m, t⟩ ⟨⟨⟨hws, -⟩, -⟩, hm⟩
  cases hm
  exact ends_modify (hws.trans (models_new models size))

theorem delivered_starting (fetch : FetchWindow σ) (t : Merge × σ) :
    (starting fetch t).delivered = none := by
  rw [Turn.delivered, starting]
  cases ((start fetch).outcome t).1 <;> rfl

theorem lostIn_of_takenIn (h : takenIn past = []) : lostIn past = [] := by
  rw [takenIn, List.filterMap_eq_nil_iff] at h
  refine List.filterMap_eq_nil_iff.2 fun t ht => ?_
  cases hl : t.lost with
  | none => rfl
  | some d => cases (h t ht).symm.trans (Turn.taken_of_lost hl)

def refused (e : Failure) (current : Option Delivery) : Turn := ⟨none, [], .error e, current⟩

theorem Checked.refused (models : List LogModel) (past : List Turn) (e : Failure)
    (current : Option Delivery) : Checked models past (refused e current) where
  asked i f hf := by cases hf
  rejected := fun ⟨f, hf, _⟩ => by cases hf

theorem Known.refused (h : Known models size past m) (e : Failure) (current : Option Delivery) :
    Known models size (past ++ [refused e current]) m := by
  have haccepted (i : Nat) : acceptedAt (past ++ [Merge.refused e current]) i = acceptedAt past i := by
    rw [acceptedAt_concat]
    exact List.append_nil _
  have htaken (H : List Turn) : takenIn (H ++ [Merge.refused e current]) = takenIn H := by
    rw [takenIn_concat]
    exact List.append_nil _
  have hlost (H : List Turn) : lostIn (H ++ [Merge.refused e current]) = lostIn H := by
    rw [lostIn_concat]
    exact List.append_nil _
  constructor
  case stage =>
    cases h.stage with
    | unopened hnone hidle =>
        exact .unopened (fun i => (haccepted i).trans (hnone i)) ((htaken past).trans hidle)
    | @opened _ begun later hacc hrows hsame hlater =>
        have hsteady : Accounts begun (later ++ [Merge.refused e current]) m :=
          hacc.concat_of_none rfl rfl rfl hacc.opened rfl hacc.finished
        refine .opened hsteady (fun i => ?_) ?_ ?_
        · rw [rowsAt_concat, haccepted, hrows]
          exact List.append_nil _
        · rw [htaken, htaken, hsame]
        · rw [hlost, hlost, hlater]
  case tables => exact h.tables
  case order => exact (htaken past).symm ▸ h.order
  case delivered =>
    refine fun t ht => ?_
    rcases List.mem_append.1 ht with ht | ht
    · exact h.delivered t ht
    · cases List.mem_singleton.1 ht
      intro d hd
      cases hd

theorem Known.start (h : Known models size past m) (fetch : FetchWindow σ) (s : σ) :
    Checked models past (starting fetch (m, s)) ∧
      Known models size (past ++ [starting fetch (m, s)]) ((start fetch).outcome (m, s)).2.1 := by
  cases h.stage with
  | opened hacc =>
      have hturn : starting fetch (m, s) = Merge.refused .alreadyOpen m.current := by
        simp only [starting, outcome, start_of_opened _ _ hacc.opened]
        rfl
      simp only [hturn, outcome, start_of_opened _ _ hacc.opened]
      exact ⟨.refused .., h.refused ..⟩
  | unopened haccepted htaken =>
      obtain ⟨hat, hrejected⟩ := starting_new fetch models size s
      have hend := start_new_ends fetch models size s
      set t := starting fetch (Merge.new models size, s) with ht
      have htakenIn : takenIn (past ++ [t]) = [] := by
        rw [takenIn_concat, htaken]
        rfl
      refine ⟨⟨fun i f hf => ?_, hrejected⟩, ?_⟩
      · obtain ⟨hafter, hmodel⟩ := hat i f (Option.mem_toList.1 hf)
        rw [haccepted]
        refine ⟨hmodel, hafter, fun u hu => Turn.acceptedAt_eq fun d hd => ?_⟩
        have hnone : u.taken = none := List.filterMap_eq_nil_iff.1 htaken u hu
        cases hnone.symm.trans (Turn.taken_of_lost hd)
      constructor
      case order => exact htakenIn ▸ .nil
      case delivered =>
        intro u hu d hd
        rcases List.mem_append.1 hu with hu | hu
        · exact h.delivered u hu d hd
        · rw [List.mem_singleton.1 hu, ht, delivered_starting] at hd
          cases hd
      case stage =>
        cases hstart : Merge.start fetch (Merge.new models size, s) with
        | error e u =>
            obtain ⟨m', s'⟩ := u
            obtain rfl : m' = Merge.new models size := hend.of_error hstart
            have hresult : t.result = .error e := by
              simp only [ht, starting, outcome, hstart]
              rfl
            simp only [outcome, hstart]
            refine .unopened (fun i => ?_) htakenIn
            rw [acceptedAt_concat, haccepted, Turn.acceptedAt, hresult]
            rfl
        | ok x u =>
            obtain ⟨m', s'⟩ := u
            have hresult : t.result = .ok false := by
              simp only [ht, starting, outcome, hstart]
              rfl
            simp only [outcome, hstart]
            refine .opened (accounts_start hstart) (fun i => ?_) htakenIn.symm ?_
            · rw [acceptedAt_concat, haccepted, Turn.acceptedAt, hresult, rowsAt, fetchesAt]
              simp [ht, Turn.rowsFrom, Turn.fetchedFrom, starting, opening]
            · rw [lostIn_of_takenIn htakenIn]
              rfl
      case tables =>
        cases hstart : Merge.start fetch (Merge.new models size, s) with
        | error e u =>
            simp only [outcome, hstart]
            exact (hend.of_error hstart).symm ▸ models_new models size
        | ok x u =>
            simp only [outcome, hstart]
            exact hend.of_ok hstart

theorem Known.next (h : Known models size past m) (fetch : FetchWindow σ) (s : σ) :
    Checked models past (turn fetch (m, s)) ∧
      Known models size (past ++ [turn fetch (m, s)]) ((next fetch).outcome (m, s)).2.1 := by
  cases h.stage with
  | unopened =>
      have hhead : leastHead 0 (Merge.new models size).windows = none :=
        leastHead_of_empty (by simp [Merge.new]) 0
      have hnext := next_of_unopened (m := Merge.new models size) fetch s rfl
      have hturn : turn fetch (Merge.new models size, s) = Merge.refused .notOpen none := by
        simp only [turn, outcome, hnext, hhead, next_of_unopened (m := Merge.new models size) _ _ rfl]
        rfl
      simp only [hturn, outcome, hnext]
      exact ⟨.refused .., h.refused ..⟩
  | @opened _ begun later hacc hrows htaken hlost =>
      have hs := step_turn fetch s hacc.opened
      generalize turn fetch (m, s) = t at hs ⊢
      refine ⟨⟨fun i f hf => ?_, hs.rejected⟩, ?_⟩
      · have hf : f ∈ t.fetchesAt i := by
          rw [Turn.fetchedFrom] at hf
          cases ht : t.taken with
          | none =>
              rw [ht, hs.idle ht] at hf
              cases hf
          | some d => simpa only [ht] using hf
        obtain ⟨w, hw, hheld, hmodel, hafter⟩ := hs.asked hf
        have hholds := hacc.windows i w hw
        refine ⟨?_, ?_, ?_⟩
        · rw [← h.tables, List.getElem?_map, hw, hmodel]
          rfl
        · rw [hafter, hholds.lastSeen, hrows]
        · refine fun u hu => Turn.acceptedAt_eq ?_
          rintro ⟨j, r⟩ hd rfl
          have hmem : (j, r) ∈ lostIn past := List.mem_filterMap.2 ⟨u, hu, hd⟩
          exact hheld (hholds.abandoned r (hlost ▸ hmem)).1
      constructor
      case stage =>
        refine .opened (hacc.step hs.trimmed.1 hs.trimmed.2) (fun i => ?_) ?_ ?_
        · rw [rowsAt_concat, acceptedAt_concat, hrows, Turn.rows_trimmed hs.idle]
        · rw [takenIn_concat, takenIn_concat, htaken, Turn.taken_trimmed]
        · rw [lostIn_concat, lostIn_concat, hlost, Turn.lost_trimmed]
      case tables => exact hs.tables.trans h.tables
      case order =>
        rw [takenIn_concat, hs.taken_eq]
        refine List.pairwise_append.2 ⟨h.order, ?_, fun a ha d hd => ?_⟩
        · cases leastHead 0 m.windows with
          | none => exact .nil
          | some d => exact List.pairwise_singleton ..
        · obtain ⟨i, row⟩ := d
          obtain ⟨k, w, rows, rfl, hw, hheld⟩ := (leastHead_eq_some (Option.mem_toList.1 hd)).1
          rw [Nat.zero_add]
          exact hacc.order a (htaken ▸ ha) k w hw row (hheld ▸ List.mem_cons_self ..)
      case delivered =>
        intro u hu d hd
        rcases List.mem_append.1 hu with hu | hu
        · exact h.delivered u hu d hd
        · cases List.mem_singleton.1 hu
          exact hs.taken_of_delivered hd

theorem Known.call (h : Known models size past m) (fetch : FetchWindow σ) (r : Request) (s : σ) :
    Checked models past (r.turn fetch (m, s)) ∧
      Known models size (past ++ [r.turn fetch (m, s)]) (r.after fetch (m, s)).1 := by
  cases r with
  | start => exact h.start fetch s
  | next => exact h.next fetch s

theorem Known.session (h : Known models size past m) (fetch : FetchWindow σ) (rs : List Request)
    (s : σ) :
    (∃ m', Known models size (past ++ session fetch rs (m, s)) m') ∧
      ∀ before t later, session fetch rs (m, s) = before ++ t :: later →
        Checked models (past ++ before) t := by
  induction rs generalizing m s past with
  | nil => exact ⟨⟨m, by simpa [Merge.session] using h⟩, by simp [Merge.session]⟩
  | cons r rs ih =>
      obtain ⟨hchecked, h'⟩ := h.call fetch r s
      obtain ⟨⟨m', hm'⟩, hlater⟩ := ih h' (r.after fetch (m, s)).2
      rw [List.append_assoc, List.singleton_append] at hm'
      refine ⟨⟨m', hm'⟩, fun before t later hsplit => ?_⟩
      cases before with
      | nil =>
          obtain ⟨rfl, -⟩ := List.cons.inj hsplit
          simpa using hchecked
      | cons u before =>
          obtain ⟨rfl, hrest⟩ := List.cons.inj hsplit
          simpa using hlater before t later hrest

theorem known_new (models : List LogModel) (size : Nat) :
    Known models size [] (Merge.new models size) where
  stage := .unopened (fun _ => rfl) rfl
  tables := models_new models size
  order := .nil
  delivered := List.forall_mem_nil _

theorem sublist_takenIn {H : List Turn} (h : ∀ t ∈ H, ∀ d ∈ t.delivered, t.taken = some d) :
    (deliveredIn H).Sublist (takenIn H) := by
  induction H with
  | nil => exact .slnil
  | cons t H ih =>
      obtain ⟨ht, hH⟩ := List.forall_mem_cons.1 h
      have hrest := ih hH
      rw [deliveredIn, takenIn, List.filterMap_cons, List.filterMap_cons]
      cases hd : t.delivered with
      | none =>
          cases t.taken with
          | none => exact hrest
          | some d => exact hrest.cons d
      | some d =>
          rw [ht d hd]
          exact hrest.cons_cons d

theorem Known.takenAt_prefix (h : Known models size past m) (i : Nat) :
    takenAt past i <+: acceptedAt past i := by
  cases h.stage with
  | unopened haccepted htaken =>
      rw [takenAt, htaken]
      exact List.nil_prefix
  | @opened _ begun later hacc hrows htaken hlost =>
      have hsame : takenAt past i = takenAt later i := by rw [takenAt, takenAt, htaken]
      rw [hsame, ← hrows]
      cases hw : m.windows[i]? with
      | some w => exact ⟨w.rows, (hacc.windows i w hw).rows.symm⟩
      | none =>
          have hnone : takenAt later i = [] := by
            refine List.eq_nil_iff_forall_not_mem.2 fun r hr => ?_
            have hi := hacc.placed _ (mem_takenAt.1 hr)
            exact absurd hi (by simpa using hw)
          rw [hnone]
          exact List.nil_prefix

/-- A merge is opened and advanced by any calls, in any order, some of which may fail, and its fetches
may answer anything. The rows that it hands out ascend strictly, first by their ids and then by the
positions of their tables. From each table they are rows that successful calls were answered, in that
order. Every call is `Checked`. -/
theorem session_ordered (fetch : FetchWindow σ) (models : List LogModel) (size : Nat) (s : σ)
    (rs : List Request) :
    let H := session fetch rs (Merge.new models size, s)
    (deliveredIn H).Pairwise Delivery.lt ∧
      (∀ i, (deliveredAt H i).Sublist (acceptedAt H i)) ∧
      ∀ past t later, H = past ++ t :: later → Checked models past t := by
  intro H
  obtain ⟨⟨m, hm⟩, hchecked⟩ := (known_new models size).session fetch rs s
  rw [List.nil_append] at hm
  have htaken : (deliveredIn H).Sublist (takenIn H) := sublist_takenIn hm.delivered
  refine ⟨hm.order.sublist htaken, fun i => ?_, hchecked⟩
  exact (htaken.filterMap _).trans (hm.takenAt_prefix i).sublist

end Merge

end ChangeFeed

namespace ChangeFeed.Sample

open Merge

def unopenedTwo : Merge × List (Except Failure (List LogRow)) :=
  (Merge.new [placeLog, spellLog] 1, [.ok [firstPlace], .error diskError, .ok [firstPlace], .ok []])

/-- The second opening is answered the row of the first table once more, and takes it in. It starts over,
whatever was fetched before. -/
theorem session_openedTwice :
    let H := session script [.start, .start, .next] unopenedTwo
    H.map (·.result) = [.error diskError, .ok false, .ok true] ∧ deliveredIn H = [(0, firstPlace)] ∧
      ¬ ∀ past t later, H = past ++ t :: later → ∀ i, ∀ f ∈ t.fetchedFrom i,
        (∃ r ∈ f.rows, ¬ Window.beyond (Window.lastOf none (past.flatMap (·.rowsFrom i))) r) →
          ∃ e, t.result = .error e ∧ e.kind = .database := by
  intro H
  refine ⟨by decide, by decide, fun h => ?_⟩
  let second : Turn := ⟨none, [⟨placeLog, none, 1, .ok [firstPlace]⟩, ⟨spellLog, none, 1, .ok []⟩],
    .ok false, none⟩
  obtain ⟨e, he, -⟩ := h [starting script unopenedTwo] second _ rfl 0
    ⟨placeLog, none, 1, .ok [firstPlace]⟩ (List.mem_singleton_self _) (by decide)
  cases he

example :
    let H := session script [.next, .start, .next, .next] (Merge.new [placeLog] 1,
      [.ok [firstPlace], .ok [firstPlace, placeLog.row 2 .delete [.integer 7, .integer 42]]])
    H.map (·.result) =
        [.error .notOpen, .ok false, .error (.outOfOrder placeLog.logTable 1), .ok false] ∧
      deliveredIn H = [] := by
  decide

end ChangeFeed.Sample
