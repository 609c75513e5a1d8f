import ChangeFeed.Proofs.Ends
import ChangeFeed.Proofs.Log.Tables

namespace ChangeFeed

open Act LogRow

/-- A fetch answers from the rows of the tables. It fails only if `faulty`. -/
def FetchWindow.Serves {σ : Type} (fetch : FetchWindow σ) (rowsOf : LogModel → List LogRow)
    (In : σ → Prop) (faulty : Prop) : Prop :=
  ∀ m after limit s, In s →
    Ends (fetch m after limit) s
      (fun rows t => rows =
          ((rowsOf m).filter fun r => after.all (MemoryLog.successor · ≤ r.sequence)).take limit ∧
        In t)
      fun _ t => faulty ∧ In t

namespace Window

def beyond (last : Option Int64) (r : LogRow) : Bool := last.all (· < r.sequence)

def lastOf (last : Option Int64) (rows : List LogRow) : Option Int64 :=
  rows.foldl (fun _ r => some r.sequence) last

theorem ascend_eq {rows : List LogRow} (h : Ascending rows) {last : Option Int64}
    (hl : ∀ r ∈ rows, beyond last r) : ascend last rows = .ok (lastOf last rows) := by
  induction rows generalizing last with
  | nil => rfl
  | cons r rows ih =>
      obtain ⟨hr, hrows⟩ := List.pairwise_cons.1 h
      have hany : ¬ last.any (r.sequence ≤ ·) := by
        have h' := hl r (List.mem_cons_self ..)
        cases last with
        | none => simp
        | some n => simpa [beyond, Int64.not_le] using h'
      rw [ascend, if_neg hany, ih hrows fun s hs => by simpa [beyond] using hr s hs]
      rfl

theorem beyond_of_lastOf {rows : List LogRow} (h : Ascending rows) {last : Option Int64}
    (hl : ∀ r ∈ rows, beyond last r) {r : LogRow} (hr : beyond (lastOf last rows) r) :
    beyond last r := by
  induction rows generalizing last with
  | nil => exact hr
  | cons s rows ih =>
      obtain ⟨hs, hrows⟩ := List.pairwise_cons.1 h
      have hafter : beyond (some s.sequence) r :=
        ih hrows (fun x hx => by simpa [beyond] using hs x hx) hr
      have hsr : s.sequence < r.sequence := by simpa [beyond] using hafter
      have hls := hl s (List.mem_cons_self ..)
      cases last with
      | none => rfl
      | some n =>
          have hns : n < s.sequence := by simpa [beyond] using hls
          simpa [beyond] using Int64.lt_trans hns hsr

theorem filter_beyond_lastOf {rows : List LogRow} (h : Ascending rows) {last : Option Int64}
    (hl : ∀ r ∈ rows, beyond last r) (n : Nat) :
    rows.filter (beyond (lastOf last (rows.take n))) = rows.drop n := by
  induction rows generalizing last n with
  | nil => simp
  | cons r rows ih =>
      cases n with
      | zero => exact List.filter_eq_self.2 hl
      | succ n =>
          obtain ⟨hr, hrows⟩ := List.pairwise_cons.1 h
          have hl' : ∀ x ∈ rows, beyond (some r.sequence) x := fun x hx => by
            simpa [beyond] using hr x hx
          have hnot : ¬ beyond (lastOf (some r.sequence) (rows.take n)) r := by
            intro hb
            have h' := beyond_of_lastOf (hrows.sublist (List.take_sublist ..))
              (fun x hx => hl' x (List.mem_of_mem_take hx)) hb
            simp [beyond, Int64.lt_irrefl] at h'
          show List.filter (beyond (lastOf (some r.sequence) (rows.take n))) (r :: rows) = rows.drop n
          rw [List.filter_cons_of_neg hnot, ih hrows hl' n]

variable {σ : Type} {fetch : FetchWindow σ} {rowsOf : LogModel → List LogRow} {In : σ → Prop}
  {faulty : Prop}

/-- The rows of a window's table that it has not seen. -/
def ahead (rowsOf : LogModel → List LogRow) (w : Window) : List LogRow :=
  (rowsOf w.model).filter (beyond w.lastSeen)

def rest (rowsOf : LogModel → List LogRow) (w : Window) : List LogRow := w.rows ++ w.ahead rowsOf

structure Ready (rowsOf : LogModel → List LogRow) (w : Window) : Prop where
  ascending : Ascending (w.rest rowsOf)
  filled : w.rows = [] → w.ahead rowsOf = []
  exhausted : w.exhausted = true → w.ahead rowsOf = []

theorem successor_le {n s : Int64} : MemoryLog.successor n ≤ s ↔
    n < s ∨ n = Int64.maxValue ∧ s = Int64.maxValue := by
  rw [MemoryLog.successor]
  by_cases hn : n = Int64.maxValue
  · subst hn
    rw [if_pos rfl]
    constructor
    · intro h
      exact .inr ⟨rfl, Int64.le_antisymm s.le_maxValue h⟩
    · rintro (h | ⟨-, rfl⟩)
      · exact Int64.le_of_lt h
      · exact Int64.le_refl _
  · rw [if_neg hn, Int64.le_iff_toInt_le, Int64.lt_iff_toInt_lt, MemoryLog.toInt_add_one hn]
    have hnever : ¬ (n = Int64.maxValue ∧ s = Int64.maxValue) := fun h => hn h.1
    rw [or_iff_left hnever]
    omega

theorem successor_le_iff {n s : Int64} (h : n = Int64.maxValue → s ≠ Int64.maxValue) :
    MemoryLog.successor n ≤ s ↔ n < s := by
  rw [successor_le, or_iff_left]
  rintro ⟨hn, hs⟩
  exact h hn hs

theorem all_successor_eq {last : Option Int64} {r : LogRow}
    (h : last = some Int64.maxValue → r.sequence ≠ Int64.maxValue) :
    last.all (MemoryLog.successor · ≤ r.sequence) = beyond last r := by
  cases last with
  | none => rfl
  | some n =>
      have hiff := successor_le_iff (n := n) (s := r.sequence) fun hn => h (congrArg some hn)
      simp [beyond, hiff]

theorem accept_ahead (hasc : ∀ m, Ascending (rowsOf m)) {size : Nat} (hn : 0 < size) {w : Window}
    (hw : w.rows = []) : ∃ w', w.accept size ((w.ahead rowsOf).take size) = .ok w' ∧
      (w'.model, w'.rest rowsOf) = (w.model, w.rest rowsOf) ∧ w'.Ready rowsOf := by
  have ha : Ascending (w.ahead rowsOf) := (hasc w.model).filter _
  have hb : ∀ r ∈ w.ahead rowsOf, beyond w.lastSeen r := fun r hr => (List.mem_filter.1 hr).2
  have htake := ha.sublist (List.take_sublist size _)
  have hbtake : ∀ r ∈ (w.ahead rowsOf).take size, beyond w.lastSeen r :=
    fun r hr => hb r (List.mem_of_mem_take hr)
  have hdrop : (rowsOf w.model).filter
      (beyond (lastOf w.lastSeen ((w.ahead rowsOf).take size))) = (w.ahead rowsOf).drop size := by
    rw [← filter_beyond_lastOf ha hb size, ahead, List.filter_filter]
    refine List.filter_congr fun r _ => ?_
    rw [Bool.eq_iff_iff, Bool.and_eq_true]
    exact ⟨fun h => ⟨h, beyond_of_lastOf htake hbtake h⟩, And.left⟩
  rw [accept, ascend_eq htake hbtake]
  generalize hw' : Window.mk w.model (w.rows ++ (w.ahead rowsOf).take size)
    (lastOf w.lastSeen ((w.ahead rowsOf).take size))
    (((w.ahead rowsOf).take size).length < size) = w'
  have hmodel : w'.model = w.model := by rw [← hw']
  have hrows : w'.rows = (w.ahead rowsOf).take size := by rw [← hw', hw, List.nil_append]
  have hahead : w'.ahead rowsOf = (w.ahead rowsOf).drop size := by rw [← hw', ahead, hdrop]
  have hrest : w'.rest rowsOf = w.ahead rowsOf := by
    rw [rest, hrows, hahead, List.take_append_drop]
  refine ⟨w', congrArg Except.ok hw', ?_, ⟨by rwa [hrest], fun h => ?_, fun h => ?_⟩⟩
  · rw [hmodel, hrest, rest, hw, List.nil_append]
  · rw [hrows, List.take_eq_nil_iff] at h
    rw [hahead, h.resolve_left (by omega), List.drop_nil]
  · rw [← hw'] at h
    have hlen := of_decide_eq_true h
    rw [List.length_take] at hlen
    rw [hahead, List.drop_eq_nil_of_le (by omega)]

theorem accept_maxValue {size : Nat} (hn : 0 < size) {w : Window}
    (hlast : w.lastSeen = some Int64.maxValue) {rows : List LogRow} (hr : rows ≠ []) :
    ∃ e, w.accept size (rows.take size) = .error e := by
  obtain ⟨r, rest, rfl⟩ := List.exists_cons_of_ne_nil hr
  obtain ⟨n, rfl⟩ := Nat.exists_eq_succ_of_ne_zero (Nat.ne_of_gt hn)
  rw [List.take_succ_cons, accept, hlast, ascend, if_pos (by simp [Int64.le_maxValue])]
  exact ⟨_, rfl⟩

theorem fill_ends (hf : fetch.Serves rowsOf In faulty) (hasc : ∀ m, Ascending (rowsOf m))
    (hmax : ∀ m, ∀ r ∈ rowsOf m, r.sequence = Int64.maxValue → faulty) {size : Nat} (hn : 0 < size)
    {w : Window} (hw : w.rows = []) {s : σ} (hs : In s) :
    Ends (w.fill fetch size) s
      (fun w' t => ((w'.model, w'.rest rowsOf) = (w.model, w.rest rowsOf) ∧ w'.Ready rowsOf) ∧ In t)
      fun _ t => faulty ∧ In t := by
  rw [Window.fill]
  refine (hf w.model w.lastSeen size s hs).bind ?_
  intro _ t hend
  obtain ⟨rfl, ht⟩ := hend
  by_cases hlast : w.lastSeen = some Int64.maxValue ∧ ∃ r ∈ rowsOf w.model, r.sequence = Int64.maxValue
  · obtain ⟨hlast, r, hr, hrm⟩ := hlast
    have hmem : r ∈ (rowsOf w.model).filter
        fun r => w.lastSeen.all (MemoryLog.successor · ≤ r.sequence) := by
      simp [hr, hrm, hlast, MemoryLog.successor]
    obtain ⟨e, he⟩ := accept_maxValue hn hlast (List.ne_nil_of_mem hmem)
    rw [he]
    exact ends_throw ⟨hmax _ r hr hrm, ht⟩
  · have hfetch : ((rowsOf w.model).filter
        fun r => w.lastSeen.all (MemoryLog.successor · ≤ r.sequence)) = w.ahead rowsOf :=
      List.filter_congr fun r hr => all_successor_eq fun hw' hs => hlast ⟨hw', r, hr, hs⟩
    obtain ⟨w', he, h⟩ := accept_ahead hasc hn hw
    rw [hfetch, he]
    exact ends_pure ⟨h, ht⟩

end Window

namespace Merge

variable {σ : Type} {fetch : FetchWindow σ} {rowsOf : LogModel → List LogRow} {In : σ → Prop}
  {faulty : Prop}

theorem leastHead_eq_none {ws : List Window} {i : Nat} (h : leastHead i ws = none) :
    ∀ w ∈ ws, w.rows = [] := by
  induction ws generalizing i with
  | nil => simp
  | cons w ws ih =>
      rw [leastHead] at h
      cases hw : w.rows with
      | nil =>
          rw [hw] at h
          exact List.forall_mem_cons.2 ⟨hw, ih h⟩
      | cons r rows =>
          rw [hw] at h
          cases hl : leastHead (i + 1) ws with
          | none => simp [hl] at h
          | some d =>
              simp only [hl, List.head?_cons] at h
              split at h <;> cases h

theorem leastHead_eq_some {ws : List Window} {i j : Nat} {r : LogRow}
    (h : leastHead i ws = some (j, r)) :
    (∃ k w rows, j = i + k ∧ ws[k]? = some w ∧ w.rows = r :: rows) ∧
      ∀ k w s rows, ws[k]? = some w → w.rows = s :: rows → Delivery.le (j, r) (i + k, s) := by
  induction ws generalizing i j r with
  | nil => cases h
  | cons w ws ih =>
      rw [leastHead] at h
      cases hw : w.rows with
      | nil =>
          simp only [hw, List.head?_nil] at h
          obtain ⟨⟨k, w', rows, rfl, hk, hr⟩, hle⟩ := ih h
          refine ⟨⟨k + 1, w', rows, by omega, hk, hr⟩, ?_⟩
          rintro (_ | k') w' s rows' hk' hr'
          · cases hk'
            simp [hw] at hr'
          · rw [show i + (k' + 1) = i + 1 + k' by omega]
            exact hle k' w' s rows' hk' hr'
      | cons s rows =>
          simp only [hw, List.head?_cons] at h
          cases hl : leastHead (i + 1) ws with
          | none =>
              simp only [hl] at h
              cases h
              refine ⟨⟨0, w, rows, rfl, rfl, hw⟩, ?_⟩
              rintro (_ | k') w' s' rows' hk' hr'
              · cases hk'
                cases hw.symm.trans hr'
                exact Delivery.le_iff.2 (.inr ⟨rfl, Nat.le_refl _⟩)
              · rw [leastHead_eq_none hl w' (List.mem_of_getElem? hk')] at hr'
                cases hr'
          | some d =>
              obtain ⟨j', r'⟩ := d
              obtain ⟨⟨k, w', rows', rfl, hk, hr⟩, hle⟩ := ih hl
              simp only [hl] at h
              by_cases hs : s.sequence ≤ r'.sequence
              · rw [if_pos hs] at h
                cases h
                refine ⟨⟨0, w, rows, rfl, rfl, hw⟩, ?_⟩
                have hfirst : Delivery.le (i, r) (i + 1 + k, r') := by
                  have hs' := Int64.le_iff_toInt_le.1 hs
                  refine Delivery.le_iff.2 ?_
                  dsimp only
                  omega
                rintro (_ | k') w'' s' rows'' hk' hr'
                · cases hk'
                  cases hw.symm.trans hr'
                  exact Delivery.le_iff.2 (.inr ⟨rfl, Nat.le_refl _⟩)
                · rw [show i + (k' + 1) = i + 1 + k' by omega]
                  exact Delivery.le_trans _ _ _ hfirst (hle k' w'' s' rows'' hk' hr')
              · rw [if_neg hs] at h
                cases h
                refine ⟨⟨k + 1, w', rows', by omega, hk, hr⟩, ?_⟩
                rintro (_ | k') w'' s' rows'' hk' hr'
                · cases hk'
                  cases hw.symm.trans hr'
                  exact Delivery.le_iff.2 (.inl (Int64.lt_iff_toInt_lt.1 (Int64.not_le.1 hs)))
                · rw [show i + (k' + 1) = i + 1 + k' by omega]
                  exact hle k' w'' s' rows'' hk' hr'

structure Reads (rowsOf : LogModel → List LogRow) (m : Merge) (ds : List Delivery) : Prop where
  opened : m.opened = true
  size_pos : 0 < m.size
  ready : ∀ w ∈ m.windows, w.Ready rowsOf
  merged_eq : merged (m.windows.map (·.rest rowsOf)) = ds
  finished : m.finished = true → ds = []

def Advanced (rowsOf : LogModel → List LogRow) (ds : List Delivery) (more : Bool) (m : Merge) : Prop :=
  match ds with
  | [] => more = false
  | d :: rest => more = true ∧ m.current = some d ∧ m.Reads rowsOf rest

theorem start_ends (hf : fetch.Serves rowsOf In faulty) (hasc : ∀ m, Ascending (rowsOf m))
    (hmax : ∀ m, ∀ r ∈ rowsOf m, r.sequence = Int64.maxValue → faulty) (models : List LogModel)
    (size : Nat) {s : σ} (hs : In s) :
    Ends (start fetch) (Merge.new models size, s)
      (fun _ t => t.1.Reads rowsOf (merged (models.map rowsOf)) ∧ In t.2)
      fun _ t => faulty ∧ In t.2 := by
  rw [start]
  refine ends_get_bind ?_
  have hn : 0 < max size 1 := by omega
  have hfill (w : Window) (s : σ) (hs : In s) :
      Ends (Window.fill fetch (max size 1) { model := w.model }) s
        (fun w' t => ((w'.model, w'.rest rowsOf) = (w.model, rowsOf w.model) ∧ w'.Ready rowsOf) ∧
          In t) fun _ t => faulty ∧ In t := by
    refine (Window.fill_ends hf hasc hmax hn rfl hs).mono ?_ fun _ _ h => h
    intro w' t hend
    obtain ⟨⟨hw, hr⟩, ht⟩ := hend
    refine ⟨⟨hw.trans ?_, hr⟩, ht⟩
    simp [Window.rest, Window.ahead, Window.beyond]
  refine ((Ends.mapM (fun w (_ : w ∈ (Merge.new models size).windows) => hfill w) hs).onSnd
    (s := (Merge.new models size, s))).seq (fun _ _ h => h.1) ?_
  rintro ws ⟨m, t⟩ ⟨⟨⟨hws, hready⟩, ht⟩, hm⟩
  cases hm
  refine ends_modify ⟨⟨rfl, hn, hready, ?_, fun h => by cases h⟩, ht⟩
  have hrest : ws.map (·.rest rowsOf) = models.map rowsOf := by
    have h := congrArg (List.map (·.2)) hws
    simpa [Merge.new, Function.comp_def] using h
  exact congrArg merged hrest

theorem leastHead_le {ws : List Window} (hr : ∀ w ∈ ws, w.Ready rowsOf) {d : Delivery}
    (hl : leastHead 0 ws = some d) : ∀ d' ∈ tagged 0 (ws.map (·.rest rowsOf)), Delivery.le d d' := by
  rintro ⟨j, s⟩ hd'
  obtain ⟨k, rows, rfl, hk, hs⟩ := mem_tagged.1 hd'
  rw [List.getElem?_map] at hk
  obtain ⟨w, hw, rfl⟩ := Option.map_eq_some_iff.1 hk
  have hready := hr w (List.mem_of_getElem? hw)
  cases hrows : w.rows with
  | nil =>
      rw [Window.rest, hrows, hready.filled hrows] at hs
      cases hs
  | cons r rows =>
      have hle := (leastHead_eq_some hl).2 k w r rows hw hrows
      have hasc := hready.ascending
      rw [Window.rest, hrows] at hs hasc
      rcases List.mem_cons.1 hs with rfl | hs'
      · exact hle
      · have hlt := Int64.lt_iff_toInt_lt.1 ((List.pairwise_cons.1 hasc).1 s hs')
        exact Delivery.le_trans _ _ _ hle (Delivery.le_iff.2 (.inl hlt))

theorem Reads.pop {m : Merge} {ds : List Delivery} (hm : m.Reads rowsOf ds) (hfin : ¬ m.finished)
    {k : Nat} {row : LogRow} (hl : leastHead 0 m.windows = some (k, row)) {w w' : Window}
    {rows : List LogRow} (hk : m.windows[k]? = some w) (hrows : w.rows = row :: rows)
    (hw' : w'.Ready rowsOf) (hrest : w'.rest rowsOf = rows ++ w.ahead rowsOf) :
    ∃ later, ds = (k, row) :: later ∧
      Reads rowsOf { m with windows := m.windows.set k w', current := some (k, row) } later := by
  have hasc : ∀ rows ∈ m.windows.map (·.rest rowsOf), Ascending rows := by
    intro rows hr
    obtain ⟨w, hw, rfl⟩ := List.mem_map.1 hr
    exact (hm.ready w hw).ascending
  have htable : (m.windows.map (·.rest rowsOf))[k]? = some (row :: (rows ++ w.ahead rowsOf)) := by
    rw [List.getElem?_map, hk, Option.map_some, Window.rest, hrows, List.cons_append]
  have hcons := merged_cons hasc htable (leastHead_le hm.ready hl)
  refine ⟨_, hm.merged_eq.symm.trans hcons, hm.opened, hm.size_pos, ?_, ?_, fun h => absurd h hfin⟩
  · intro x hx
    rcases List.mem_or_eq_of_mem_set hx with hx | rfl
    · exact hm.ready x hx
    · exact hw'
  · refine congrArg merged ?_
    rw [modify_eq_set _ htable, List.map_set, hrest]
    rfl

/-- A merge takes the first of the rows that it still has to deliver. -/
theorem next_ends (hf : fetch.Serves rowsOf In faulty) (hasc : ∀ m, Ascending (rowsOf m))
    (hmax : ∀ m, ∀ r ∈ rowsOf m, r.sequence = Int64.maxValue → faulty) {m : Merge}
    {ds : List Delivery} {s : σ} (hm : m.Reads rowsOf ds) (hs : In s) :
    Ends (next fetch) (m, s) (fun more t => Advanced rowsOf ds more t.1 ∧ In t.2)
      fun _ t => faulty ∧ In t.2 := by
  rw [next]
  refine ends_get_bind ?_
  dsimp only
  rw [if_neg (by simp [hm.opened])]
  by_cases hfin : m.finished
  · rw [if_pos hfin, hm.finished hfin]
    exact ends_pure ⟨rfl, hs⟩
  rw [if_neg hfin]
  have hds := hm.merged_eq
  cases hl : leastHead 0 m.windows with
  | none =>
      have hnil : ds = [] := by
        rw [← hds, merged_eq_nil_iff]
        intro rows hr
        obtain ⟨w, hw, rfl⟩ := List.mem_map.1 hr
        have hempty := leastHead_eq_none hl w hw
        rw [Window.rest, hempty, (hm.ready w hw).filled hempty, List.append_nil]
      dsimp only
      refine ends_modify_bind (ends_pure ⟨?_, hs⟩)
      rw [hnil]
      rfl
  | some d =>
      obtain ⟨i, row⟩ := d
      obtain ⟨k, w, rows, rfl, hk, hrows⟩ := (leastHead_eq_some hl).1
      rw [Nat.zero_add] at hl
      have hw := hm.ready w (List.mem_of_getElem? hk)
      have hpop : (m.windows.modify k fun w => { w with rows := w.rows.tail }) =
          m.windows.set k { w with rows := rows } := by
        rw [modify_eq_set _ hk, hrows]
        rfl
      have hat : (m.windows.set k { w with rows := rows })[k]? = some { w with rows := rows } :=
        List.getElem?_set_self (List.getElem?_eq_some_iff.1 hk).1
      simp only [Nat.zero_add, hpop, hat]
      refine ends_modify_bind ?_
      by_cases hfill : (rows.isEmpty && !w.exhausted) = true
      · -- The window has run empty, and its table may have more rows.
        rw [if_pos hfill]
        rw [Bool.and_eq_true, List.isEmpty_iff] at hfill
        have hempty : (Window.mk w.model rows w.lastSeen w.exhausted).rows = [] := hfill.1
        refine ((Window.fill_ends hf hasc hmax hm.size_pos hempty hs).onSnd
          (s := ({ m with windows := m.windows.set k { w with rows := rows } }, s))).seq
          (fun _ _ h => h.1) ?_
        rintro w' ⟨m', t⟩ ⟨⟨⟨hw', hready⟩, ht⟩, hm'⟩
        cases hm'
        refine ends_modify_bind (ends_modify_bind (ends_pure ⟨?_, ht⟩))
        obtain ⟨later, rfl, hr⟩ := hm.pop hfin hl hk hrows hready (congrArg (·.2) hw')
        refine ⟨rfl, rfl, ?_⟩
        dsimp only
        rwa [List.set_set]
      · rw [if_neg hfill]
        refine ends_modify_bind (ends_pure ⟨?_, hs⟩)
        have hahead : rows = [] → w.ahead rowsOf = [] := by
          intro h
          refine hw.exhausted ?_
          simpa [h] using hfill
        have hasc' := hw.ascending
        rw [Window.rest, hrows, List.cons_append] at hasc'
        have hpopped : Window.Ready rowsOf { w with rows := rows } :=
          ⟨(List.pairwise_cons.1 hasc').2, hahead, hw.exhausted⟩
        obtain ⟨later, rfl, hr⟩ := hm.pop hfin hl hk hrows hpopped rfl
        exact ⟨rfl, rfl, hr⟩

theorem foldRows_ends {β : Type} (hf : fetch.Serves rowsOf In faulty)
    (hasc : ∀ m, Ascending (rowsOf m))
    (hmax : ∀ m, ∀ r ∈ rowsOf m, r.sequence = Int64.maxValue → faulty)
    (step : β → Delivery → Except Failure β) (n : Nat) (acc : β) {m : Merge} {ds : List Delivery}
    {s : σ} (hm : m.Reads rowsOf ds) (hs : In s) :
    Ends (foldRows fetch step n acc) (m, s)
      (fun b t => (ds.take n).foldlM step acc = .ok b ∧ In t.2)
      fun e t => (faulty ∨ (ds.take n).foldlM step acc = .error e) ∧ In t.2 := by
  induction n generalizing acc m ds s with
  | zero => exact ends_pure ⟨rfl, hs⟩
  | succ n ih =>
      rw [foldRows]
      refine (next_ends hf hasc hmax hm hs).seq ?_ ?_
      · intro e t hend
        obtain ⟨h, ht⟩ := hend
        exact ⟨.inl h, ht⟩
      rintro more ⟨m', s'⟩ ⟨h, ht⟩
      cases ds with
      | nil =>
          rw [show more = false from h, List.take_nil]
          exact ends_pure ⟨rfl, ht⟩
      | cons d rest =>
          obtain ⟨rfl, hc, hr⟩ := h
          rw [if_pos rfl, List.take_succ_cons, List.foldlM_cons]
          refine ends_get_bind ?_
          have hstep : (m'.current? >>= step acc) = step acc d := by
            rw [current?, show m'.current = some d from hc]
            rfl
          dsimp only
          rw [hstep]
          cases step acc d with
          | error e => exact ends_throw ⟨.inr rfl, ht⟩
          | ok acc' => exact ih acc' hr ht

end Merge

end ChangeFeed
