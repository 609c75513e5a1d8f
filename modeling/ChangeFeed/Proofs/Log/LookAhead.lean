import ChangeFeed.Proofs.Log.Kept
import ChangeFeed.Proofs.Log.Order
import Mathlib.Data.List.Induction

namespace ChangeFeed

open Act LogRow

variable {σ : Type} {rowsOf : LogModel → List LogRow} {In : σ → Prop}

namespace Fetched

/-- The fetch of a portion of a table, counted from 0. It asks for what comes after the last row of the
portion before. -/
def portion (rowsOf : LogModel → List LogRow) (size : Nat) (m : LogModel) (j : Nat) : Fetched where
  model := m
  after := ((rowsOf m).take (j * size)).getLast?.map (·.sequence)
  limit := size
  answer := .ok (((rowsOf m).drop (j * size)).take size)

def Answered (rowsOf : LogModel → List LogRow) (f : Fetched) : Prop :=
  f.answer = .ok (((rowsOf f.model).filter fun r =>
    f.after.all (MemoryLog.successor · ≤ r.sequence)).take f.limit)

/-- The fetches from one table. -/
def ofTable (m : LogModel) (fs : List Fetched) : List Fetched :=
  fs.filter (·.model.logTable = m.logTable)

end Fetched

open Fetched

namespace Window

/-- The window of a table of which `c` rows were taken. It has seen whole portions, the last of which is
not used up. -/
def taken (rowsOf : LogModel → List LogRow) (size : Nat) (m : LogModel) (c : Nat) : Window where
  model := m
  rows := ((rowsOf m).take ((c / size + 1) * size)).drop c
  lastSeen := ((rowsOf m).take ((c / size + 1) * size)).getLast?.map (·.sequence)
  exhausted := (rowsOf m).length < (c / size + 1) * size

variable {m : LogModel} {size c j : Nat} {row : LogRow} {rest : List LogRow}

theorem lastOf_none (rows : List LogRow) : lastOf none rows = rows.getLast?.map (·.sequence) := by
  induction rows using List.reverseRecOn with
  | nil => rfl
  | append_singleton rows r => simp [lastOf]

theorem lt_div_succ_mul (hsize : 0 < size) (c : Nat) : c < (c / size + 1) * size := by
  rw [Nat.mul_comm]
  exact Nat.lt_mul_div_succ c hsize

theorem getElem?_of_taken (h : (taken rowsOf size m c).rows = row :: rest) :
    (rowsOf m)[c]? = some row ∧ rest = ((rowsOf m).take ((c / size + 1) * size)).drop (c + 1) := by
  have hrow := congrArg List.head? h
  have hrest := congrArg List.tail h
  rw [taken, List.head?_drop, List.getElem?_take] at hrow
  rw [taken, List.tail_drop] at hrest
  split at hrow
  · exact ⟨hrow, hrest.symm⟩
  · cases hrow

theorem dvd_iff_of_taken (hsize : 0 < size) (h : (taken rowsOf size m c).rows = row :: rest) :
    size ∣ c + 1 ↔ rest = [] ∧ (taken rowsOf size m c).exhausted = false := by
  obtain ⟨hrow, rfl⟩ := getElem?_of_taken h
  have hc : c < (rowsOf m).length := (List.getElem?_eq_some_iff.1 hrow).1
  have hlt := lt_div_succ_mul hsize c
  have hexhausted : (taken rowsOf size m c).exhausted = false ↔
      (c / size + 1) * size ≤ (rowsOf m).length := by simp [taken]
  rw [hexhausted, List.drop_eq_nil_iff, List.length_take]
  constructor
  · intro hd
    rw [← Nat.succ_div_of_dvd hd, Nat.div_mul_cancel hd]
    omega
  · rintro ⟨hle, hfull⟩
    exact ⟨c / size + 1, by rw [Nat.mul_comm]; omega⟩

theorem length_taken (rowsOf : LogModel → List LogRow) (size : Nat) (m : LogModel) (c : Nat) :
    (taken rowsOf size m c).rows.length ≤ size := by
  have hle := Nat.div_mul_le_self c size
  rw [taken, List.length_drop, List.length_take, Nat.succ_mul]
  omega

theorem eq_length_of_taken (hsize : 0 < size) (hc : c ≤ (rowsOf m).length)
    (h : (taken rowsOf size m c).rows = []) : c = (rowsOf m).length := by
  have hlt := lt_div_succ_mul hsize c
  rw [taken, List.drop_eq_nil_iff, List.length_take] at h
  omega

theorem taken_succ (hd : ¬ size ∣ c + 1) (h : (taken rowsOf size m c).rows = row :: rest) :
    { taken rowsOf size m c with rows := rest } = taken rowsOf size m (c + 1) := by
  obtain ⟨-, rfl⟩ := getElem?_of_taken h
  simp only [taken, Nat.succ_div_of_not_dvd hd]

theorem accept_portion (hasc : Ascending (rowsOf m)) (hsize : 0 < size) (j : Nat) (exhausted : Bool) :
    Window.accept ⟨m, [], (portion rowsOf size m j).after, exhausted⟩ size
      (((rowsOf m).drop (j * size)).take size) = .ok (taken rowsOf size m (j * size)) := by
  have hbeyond : ∀ r ∈ ((rowsOf m).drop (j * size)).take size,
      beyond (lastOf none ((rowsOf m).take (j * size))) r := by
    intro r hr
    have hr := List.mem_of_mem_take hr
    rw [← filter_beyond_lastOf hasc (fun _ _ => rfl : ∀ r ∈ rowsOf m, beyond none r)] at hr
    exact (List.mem_filter.1 hr).2
  have hportion : Ascending (((rowsOf m).drop (j * size)).take size) :=
    (hasc.sublist (List.drop_sublist ..)).sublist (List.take_sublist ..)
  have hlast : lastOf (lastOf none ((rowsOf m).take (j * size))) (((rowsOf m).drop (j * size)).take size) =
      ((rowsOf m).take ((j + 1) * size)).getLast?.map (·.sequence) := by
    rw [← lastOf_none, Nat.succ_mul, List.take_add]
    exact (List.foldl_append ..).symm
  have hrows : ((rowsOf m).take ((j + 1) * size)).drop (j * size) =
      ((rowsOf m).drop (j * size)).take size := by
    rw [List.drop_take, Nat.succ_mul, Nat.add_sub_cancel_left]
  have hshort : (((rowsOf m).drop (j * size)).take size).length < size ↔
      (rowsOf m).length < (j + 1) * size := by
    rw [List.length_take, List.length_drop, Nat.succ_mul]
    omega
  rw [accept, portion, ← lastOf_none, ascend_eq hportion hbeyond]
  simp only [taken, Nat.mul_div_cancel j hsize, hlast, hrows, hshort, List.nil_append]

theorem portion_of_answered {f : Fetched} (hasc : Ascending (rowsOf m))
    (hmax : ∀ r ∈ rowsOf m, r.sequence ≠ Int64.maxValue) (h : f.Answered rowsOf) (hmodel : f.model = m)
    (hafter : f.after = (portion rowsOf size m j).after) (hlimit : f.limit = size) :
    f = portion rowsOf size m j := by
  have hrest : ((rowsOf m).filter fun r => (portion rowsOf size m j).after.all
      (MemoryLog.successor · ≤ r.sequence)) = (rowsOf m).drop (j * size) := by
    rw [← filter_beyond_lastOf hasc (fun _ _ => rfl : ∀ r ∈ rowsOf m, beyond none r), lastOf_none]
    exact List.filter_congr fun r hr => all_successor_eq fun _ => hmax r hr
  rw [Answered, hmodel, hafter, hlimit, hrest] at h
  calc f = ⟨f.model, f.after, f.limit, f.answer⟩ := rfl
    _ = portion rowsOf size m j := by rw [hmodel, hafter, hlimit, h]; rfl

theorem taken_refilled (hasc : Ascending (rowsOf m))
    (hmax : ∀ r ∈ rowsOf m, r.sequence ≠ Int64.maxValue) (hsize : 0 < size)
    (hd : size ∣ c + 1) {answer : Except Failure (List LogRow)}
    (h : Answered rowsOf ⟨m, (taken rowsOf size m c).lastSeen, size, answer⟩) :
    ⟨m, (taken rowsOf size m c).lastSeen, size, answer⟩ = portion rowsOf size m ((c + 1) / size) ∧
      answer.bind ({ taken rowsOf size m c with rows := [] }.accept size) =
        .ok (taken rowsOf size m (c + 1)) := by
  have hlast : (taken rowsOf size m c).lastSeen = (portion rowsOf size m ((c + 1) / size)).after := by
    rw [taken, portion, Nat.succ_div_of_dvd hd]
  have hportion := portion_of_answered hasc hmax h rfl hlast rfl
  obtain rfl : answer = _ := congrArg Fetched.answer hportion
  refine ⟨hportion, ?_⟩
  show Window.accept ⟨m, [], _, _⟩ size (((rowsOf m).drop ((c + 1) / size * size)).take size) = _
  rw [Nat.div_mul_cancel hd]
  have haccept := accept_portion hasc hsize ((c + 1) / size) (taken rowsOf size m c).exhausted
  rwa [← hlast, Nat.div_mul_cancel hd] at haccept

end Window

def FetchWindow.Answers (fetch : FetchWindow σ) (P : Fetched → Prop) (inv : σ → Prop) : Prop :=
  ∀ m after limit s, inv s → Ends (fetch m after limit) s
    (fun rows t => P ⟨m, after, limit, .ok rows⟩ ∧ inv t)
    fun e t => P ⟨m, after, limit, .error e⟩ ∧ inv t

namespace Merge

variable {fetch : FetchWindow σ} {P : Fetched → Prop} {inv : σ → Prop}

theorem noted_keeps (hf : fetch.Answers P inv) (m : LogModel) (after : Option Int64) (limit : Nat) :
    Keeps (fun t : σ × List Fetched => inv t.1 ∧ ∀ f ∈ t.2, P f) (fetch.noted m after limit) := by
  rintro ⟨s, noted⟩ ⟨hs, hnoted⟩
  have hmore (f : Fetched) (h : P f) : ∀ g ∈ noted ++ [f], P g :=
    List.forall_mem_append.2 ⟨hnoted, List.forall_mem_singleton.2 h⟩
  have hend := hf m after limit s hs
  rw [Ends] at hend ⊢
  rw [FetchWindow.noted]
  cases hr : fetch m after limit s with
  | ok rows t =>
      rw [hr] at hend
      exact ⟨hend.2, hmore _ hend.1⟩
  | error e t =>
      rw [hr] at hend
      exact ⟨hend.2, hmore _ hend.1⟩

theorem fetch_keeps (hf : fetch.Answers P inv) (m : LogModel) (after : Option Int64) (limit : Nat) :
    Keeps inv (fetch m after limit) := fun s hs =>
  (hf m after limit s hs).mono (fun _ _ h => h.2) fun _ _ h => h.2

theorem fetches_turn (hf : fetch.Answers P inv) (m : Merge) {s : σ} (hs : inv s) :
    ∀ f ∈ (turn fetch (m, s)).fetches, P f :=
  ((next_keeps (noted_keeps hf)).outcome (s := (m, s, [])) ⟨hs, List.forall_mem_nil _⟩).2

theorem fetches_opening (hf : fetch.Answers P inv) (models : List LogModel) (size : Nat) {s : σ}
    (hs : inv s) : ∀ f ∈ opening fetch models size s, P f :=
  ((start_keeps (noted_keeps hf)).outcome (s := (Merge.new models size, s, []))
    ⟨hs, List.forall_mem_nil _⟩).2

/-- A call that delivers the last row of a portion of its table fetches the next portion. Nothing else is
fetched. -/
def Turn.Refills (rowsOf : LogModel → List LogRow) (models : List LogModel) (size : Nat) (t : Turn) :
    Prop :=
  t.delivered = none ∧ t.fetches = [] ∨
    ∃ i m c r, models[i]? = some m ∧ (rowsOf m)[c]? = some r ∧ t.delivered = some (i, r) ∧
      t.fetches = if size ∣ c + 1 then [portion rowsOf size m ((c + 1) / size)] else []

/-- The invariant of the calls. Of each table some rows were taken, and the portions that these are in were
fetched, with one more if they fill their portions. -/
structure Paced (rowsOf : LogModel → List LogRow) (models : List LogModel) (size : Nat)
    (begun : List Fetched) (past : List Turn) (m : Merge) : Prop where
  opened : m.opened = true
  size_eq : m.size = size
  length_windows : m.windows.length = models.length
  finished : m.finished = true → ∀ w ∈ m.windows, w.rows = []
  drained : (∃ t ∈ past, t.result = .ok false) → m.finished = true
  tables : ∀ (i : Nat) (model : LogModel), models[i]? = some model → ∃ c ≤ (rowsOf model).length,
    m.windows[i]? = some (Window.taken rowsOf size model c) ∧
      ofTable model (begun ++ past.flatMap (·.fetches)) =
        (List.range (c / size + 1)).map (portion rowsOf size model)

variable {models : List LogModel} {size : Nat} {begun : List Fetched} {past : List Turn} {t : Turn}
  {m m' : Merge}

theorem Paced.window (h : Paced rowsOf models size begun past m) {k : Nat} {w : Window}
    (hw : m.windows[k]? = some w) : ∃ model c, models[k]? = some model ∧
      w = Window.taken rowsOf size model c ∧ ofTable model (begun ++ past.flatMap (·.fetches)) =
        (List.range (c / size + 1)).map (portion rowsOf size model) := by
  have hk : k < models.length := h.length_windows ▸ (List.getElem?_eq_some_iff.1 hw).1
  obtain ⟨c, -, hw', hfetched⟩ := h.tables k models[k] (List.getElem?_eq_getElem hk)
  exact ⟨models[k], c, List.getElem?_eq_getElem hk, Option.some.inj (hw.symm.trans hw'), hfetched⟩

theorem ofTable_concat (model : LogModel) (begun : List Fetched) (past : List Turn) (t : Turn) :
    ofTable model (begun ++ (past ++ [t]).flatMap (·.fetches)) =
      ofTable model (begun ++ past.flatMap (·.fetches)) ++ ofTable model t.fetches := by
  simp [ofTable]

theorem Paced.idle (h : Paced rowsOf models size begun past m) (hfetches : t.fetches = [])
    (hempty : ∀ w ∈ m.windows, w.rows = []) (current : Option Delivery) :
    Paced rowsOf models size begun (past ++ [t]) { m with current, finished := true } where
  opened := h.opened
  size_eq := h.size_eq
  length_windows := h.length_windows
  finished _ := hempty
  drained _ := rfl
  tables i model hi := by
    obtain ⟨c, hc, hw, hfetched⟩ := h.tables i model hi
    refine ⟨c, hc, hw, ?_⟩
    rw [ofTable_concat, hfetched, hfetches]
    exact List.append_nil _

theorem Paced.advance (hnd : (models.map (·.logTable)).Nodup)
    (h : Paced rowsOf models size begun past m) (hfin : m.finished = false) {k c : Nat}
    {model : LogModel} (hk : models[k]? = some model) (hc : c < (rowsOf model).length)
    (hfetched : ofTable model (begun ++ past.flatMap (·.fetches)) =
      (List.range (c / size + 1)).map (portion rowsOf size model))
    (hresult : t.result = .ok true) (hfetches : t.fetches =
      if size ∣ c + 1 then [portion rowsOf size model ((c + 1) / size)] else [])
    (current : Option Delivery) : Paced rowsOf models size begun (past ++ [t])
      (m.put k (Window.taken rowsOf size model (c + 1)) current) := by
  have hlength : k < m.windows.length :=
    h.length_windows ▸ (List.getElem?_eq_some_iff.1 hk).1
  constructor
  case opened => exact h.opened
  case size_eq => exact h.size_eq
  case length_windows => rw [put, List.length_set, h.length_windows]
  case finished => exact fun hf => by rw [put, hfin] at hf; cases hf
  case drained =>
    rintro ⟨u, hu, hfalse⟩
    rcases List.mem_append.1 hu with hu | hu
    · exact h.drained ⟨u, hu, hfalse⟩
    · cases List.mem_singleton.1 hu
      cases hresult.symm.trans hfalse
  case tables =>
    intro i model' hi
    rw [put, List.getElem?_set, if_pos hlength, ofTable_concat, hfetches]
    by_cases hik : k = i
    · subst hik
      cases hk.symm.trans hi
      refine ⟨c + 1, hc, if_pos rfl, ?_⟩
      rw [hfetched]
      split
      next hd =>
        rw [Nat.succ_div_of_dvd hd, List.range_succ (n := c / size + 1), List.map_append]
        simp [ofTable, portion]
      next hd =>
        rw [Nat.succ_div_of_not_dvd hd]
        exact List.append_nil _
    · obtain ⟨c', hc', hw', hfetched'⟩ := h.tables i model' hi
      have hother : model.logTable ≠ model'.logTable := fun he => hik (eq_of_logTable_eq hnd hk hi he)
      refine ⟨c', hc', by rw [if_neg hik, hw'], ?_⟩
      rw [hfetched']
      split
      · simp [ofTable, portion, hother]
      · exact List.append_nil _

def called (fetch : FetchWindow σ) : Nat → Merge × σ → Merge × σ
  | 0, t => t
  | n + 1, t => called fetch n ((next fetch).outcome t).2

section

variable (hasc : ∀ m, Ascending (rowsOf m)) (hmax : ∀ m, ∀ r ∈ rowsOf m, r.sequence ≠ Int64.maxValue)
  (hsize : 0 < size)
include hasc hmax hsize

theorem portion_of_begun {f : Fetched} {w : Window} (hf : f.Answered rowsOf) (h : Begun size f w) :
    f = portion rowsOf size w.model 0 ∧ w = Window.taken rowsOf size w.model 0 := by
  have hafter : (portion rowsOf size w.model 0).after = none := by simp [portion]
  obtain ⟨rows, rfl, haccept⟩ := h
  have hportion := Window.portion_of_answered (hasc w.model) (hmax w.model) hf rfl hafter.symm rfl
  obtain rfl : rows = _ := Except.ok.inj (congrArg Fetched.answer hportion)
  have hfirst := Window.accept_portion (hasc w.model) hsize 0 false
  rw [hafter, Nat.zero_mul] at hfirst
  rw [Nat.zero_mul] at haccept
  exact ⟨hportion, Except.ok.inj (haccept.symm.trans hfirst)⟩

theorem portions_of_begun {fs : List Fetched} {ws : List Window}
    (h : List.Forall₂ (Begun size) fs ws) (hfs : ∀ f ∈ fs, f.Answered rowsOf) :
    fs = (ws.map (·.model)).map (portion rowsOf size · 0) ∧
      ws = (ws.map (·.model)).map (Window.taken rowsOf size · 0) := by
  induction h with
  | nil => exact ⟨rfl, rfl⟩
  | cons hf _ ih =>
      obtain ⟨hanswer, hfs⟩ := List.forall_mem_cons.1 hfs
      obtain ⟨hportion, htaken⟩ := portion_of_begun hasc hmax hsize hanswer hf
      obtain ⟨hportions, hrest⟩ := ih hfs
      exact ⟨congrArg₂ _ hportion hportions, congrArg₂ _ htaken hrest⟩

variable (hnd : (models.map (·.logTable)).Nodup)
include hnd

theorem paced_start (hf : fetch.Answers (·.Answered rowsOf) In) {s s' : σ} (hs : In s)
    (h : start fetch (Merge.new models size, s) = .ok () (m, s')) :
    opening fetch models size s = models.map (portion rowsOf size · 0) ∧
      Paced rowsOf models size (opening fetch models size s) [] m := by
  obtain ⟨hopen, hfin, hms, hbegun, hlength⟩ := start_ok h
  rw [Nat.max_eq_left hsize] at hms
  rw [hms] at hbegun
  obtain ⟨hopening, hwindows⟩ :=
    portions_of_begun hasc hmax hsize hbegun (fetches_opening hf models size hs)
  rw [(start_new_ends fetch models size s).of_ok h] at hopening hwindows
  refine ⟨hopening, ?_⟩
  constructor
  case opened => exact hopen
  case size_eq => exact hms
  case length_windows => exact hlength
  case finished => exact fun h => by cases hfin.symm.trans h
  case drained =>
    rintro ⟨t, ht, -⟩
    cases ht
  case tables =>
    intro i model hi
    have hmem := List.mem_of_getElem? hi
    have honly : models.filter (·.logTable = model.logTable) = [model] := by
      refine filter_eq_singleton (hnd.of_map _) hmem fun model' hmem' => ?_
      rw [decide_eq_true_iff]
      exact ⟨eq_of_key hnd hmem' hmem, fun he => congrArg _ he⟩
    have hfirst : ofTable model (models.map (portion rowsOf size · 0)) = [portion rowsOf size model 0] := by
      rw [ofTable, List.filter_map]
      exact congrArg (List.map (portion rowsOf size · 0)) honly
    refine ⟨0, Nat.zero_le _, by rw [hwindows, List.getElem?_map, hi]; rfl, ?_⟩
    rw [hopening, List.flatMap_nil, List.append_nil, hfirst, Nat.zero_div]
    rfl

theorem Paced.step (h : Paced rowsOf models size begun past m) (hs : Step m t m')
    (ht : ∀ f ∈ t.fetches, f.Answered rowsOf) :
    t.Refills rowsOf models size ∧ Paced rowsOf models size begun (past ++ [t]) m' := by
  cases hs with
  | ended hfin =>
      refine ⟨.inl ⟨rfl, rfl⟩, ?_⟩
      have hidle := h.idle (t := ⟨leastHead 0 m.windows, [], .ok false, m.current⟩) rfl
        (h.finished hfin) m.current
      rwa [← hfin] at hidle
  | last hfin hl => exact ⟨.inl ⟨rfl, rfl⟩, h.idle rfl (leastHead_eq_none hl) none⟩
  | @held k w row rest hfin hl hw hrows hkeep =>
      obtain ⟨model, c, hk, rfl, hfetched⟩ := h.window hw
      obtain ⟨hrow, -⟩ := Window.getElem?_of_taken hrows
      have hd : ¬ size ∣ c + 1 := by
        rw [Window.dvd_iff_of_taken hsize hrows]
        rintro ⟨hrest, hmore⟩
        rw [hkeep hrest] at hmore
        cases hmore
      rw [Window.taken_succ hd hrows]
      have hc := (List.getElem?_eq_some_iff.1 hrow).1
      exact ⟨.inr ⟨k, model, c, row, hk, hrow, rfl, (if_neg hd).symm⟩,
        h.advance hnd hfin hk hc hfetched rfl (if_neg hd).symm _⟩
  | @filled k w w' row fetched hfin hl hw hrows hmore haccept =>
      obtain ⟨model, c, hk, rfl, hfetched⟩ := h.window hw
      obtain ⟨hrow, -⟩ := Window.getElem?_of_taken hrows
      have hd := (Window.dvd_iff_of_taken hsize hrows).2 ⟨rfl, hmore⟩
      have hanswer := ht _ (List.mem_singleton_self _)
      rw [h.size_eq] at hanswer haccept
      obtain ⟨hportion, hrefilled⟩ := Window.taken_refilled (hasc model) (hmax model) hsize hd hanswer
      cases haccept.symm.trans hrefilled
      have hc := (List.getElem?_eq_some_iff.1 hrow).1
      have hfetches : [⟨model, (Window.taken rowsOf size model c).lastSeen, size, .ok fetched⟩] =
          if size ∣ c + 1 then [portion rowsOf size model ((c + 1) / size)] else [] := by
        rw [if_pos hd, ← hportion]
      rw [h.size_eq]
      exact ⟨.inr ⟨k, model, c, row, hk, hrow, rfl, hfetches⟩,
        h.advance hnd hfin hk hc hfetched rfl hfetches _⟩
  | @failed k w row answer e hfin hl hw hrows hmore hfail =>
      -- The next portion of a table is never turned down.
      obtain ⟨model, c, -, rfl, -⟩ := h.window hw
      have hd := (Window.dvd_iff_of_taken hsize hrows).2 ⟨rfl, hmore⟩
      have hanswer := ht _ (List.mem_singleton_self _)
      rw [h.size_eq] at hanswer hfail
      obtain ⟨-, hrefilled⟩ := Window.taken_refilled (hasc model) (hmax model) hsize hd hanswer
      cases hfail.symm.trans hrefilled

theorem Paced.turns (hf : fetch.Answers (·.Answered rowsOf) In) (n : Nat) {past : List Turn} {m : Merge}
    (h : Paced rowsOf models size begun past m) {s : σ} (hs : In s) :
    (∀ t ∈ turns fetch n (m, s), t.Refills rowsOf models size) ∧
      Paced rowsOf models size begun (past ++ turns fetch n (m, s)) (called fetch n (m, s)).1 := by
  induction n generalizing past m s with
  | zero => exact ⟨List.forall_mem_nil _, (List.append_nil past).symm ▸ h⟩
  | succ n ih =>
      obtain ⟨hrefills, h'⟩ := h.step hasc hmax hsize hnd (step_turn fetch s h.opened)
        (fetches_turn hf m hs)
      have hs' := (next_keeps (fetch_keeps hf)).outcome (s := (m, s)) hs
      obtain ⟨hlater, hend⟩ := ih h' hs'
      rw [List.append_assoc, List.singleton_append] at hend
      exact ⟨List.forall_mem_cons.2 ⟨hrefills, hlater⟩, hend⟩

end

/-- Each window of the merge holds at most so many rows. -/
def Bounded (size : Nat) (m : Merge) : Prop := ∀ w ∈ m.windows, w.rows.length ≤ size

/-- The merge at the moment its next call asks for rows. A call whose fetch fails leaves it so. -/
def asking (m : Merge) : Merge := ((next fun _ _ _ => throw .notOpen).outcome (m, ())).2.1

theorem Step.bounded (hs : Step m t m') (ht : ∀ f ∈ t.fetches, f.rows.length ≤ f.limit)
    (h : m.Bounded m.size) : m'.Bounded m.size := by
  have hput {i : Nat} {w : Window} (hw : w.rows.length ≤ m.size) (current : Option Delivery) :
      (m.put i w current).Bounded m.size := by
    intro x hx
    rcases List.mem_or_eq_of_mem_set hx with hx | rfl
    · exact h x hx
    · exact hw
  cases hs with
  | ended | last => exact h
  | @held i w row rows hfin hl hw hrows =>
      refine hput ?_ _
      have hle := h w (List.mem_of_getElem? hw)
      rw [hrows, List.length_cons] at hle
      exact Nat.le_of_succ_le hle
  | filled hfin hl hw hrows hmore haccept =>
      refine hput ?_ _
      rw [(Window.accept_ok haccept).2.2]
      exact ht _ (List.mem_singleton_self _)
  | failed => exact hput (Nat.zero_le _) _

theorem Paced.bounded (h : Paced rowsOf models size begun past m) :
    m.Bounded size ∧ m.asking.Bounded size := by
  have hm : m.Bounded size := by
    intro w hw
    obtain ⟨k, hk⟩ := List.getElem?_of_mem hw
    obtain ⟨model, c, -, rfl, -⟩ := h.window hk
    exact Window.length_taken rowsOf size model c
  have hnone : FetchWindow.Answers (fun _ _ _ => throw .notOpen : FetchWindow Unit)
      (fun f => f.rows.length ≤ f.limit) fun _ => True := fun _ _ _ _ _ =>
    ends_throw ⟨Nat.zero_le _, trivial⟩
  have hasking := (step_turn _ () h.opened).bounded (fetches_turn hnone m trivial) (h.size_eq ▸ hm)
  exact ⟨hm, h.size_eq ▸ hasking⟩

theorem Paced.total (hsize : 0 < size) (h : Paced rowsOf models size begun past m)
    (hend : ∃ t ∈ past, t.result = .ok false) {model : LogModel} (hmodel : model ∈ models) :
    ofTable model (begun ++ past.flatMap (·.fetches)) =
      (List.range ((rowsOf model).length / size + 1)).map (portion rowsOf size model) := by
  obtain ⟨i, hi⟩ := List.getElem?_of_mem hmodel
  obtain ⟨c, hc, hw, hfetched⟩ := h.tables i model hi
  have hempty := h.finished (h.drained hend) _ (List.mem_of_getElem? hw)
  rwa [Window.eq_length_of_taken hsize hc hempty] at hfetched

theorem results_of_calls {n : Nat} {t u : Merge × σ} {as : List Answer}
    (h : calls fetch n t = .ok as u) : (turns fetch n t).map (·.result) = as.map fun a => .ok a.1 := by
  induction n generalizing t as with
  | zero =>
      cases h
      rfl
  | succ n ih =>
      rw [calls, bind_apply] at h
      cases hnext : next fetch t with
      | error e t' =>
          simp only [hnext] at h
          cases h
      | ok more t' =>
          obtain ⟨m', s'⟩ := t'
          simp only [hnext] at h
          replace h : (calls fetch n >>= fun as => pure ((more, m'.current?) :: as) :
            Act (Merge × σ) _) (m', s') = .ok as u := h
          rw [bind_apply] at h
          cases hrest : calls fetch n (m', s') with
          | error e t'' =>
              simp only [hrest] at h
              cases h
          | ok later t'' =>
              simp only [hrest] at h
              cases h
              simp [Merge.turns, turn, outcome, hnext, ih hrest]

theorem results_answers (ds : List Delivery) (n : Nat) :
    ((answers ds n).map fun a => .ok a.1 : List (Except Failure Bool)) =
      List.replicate (min n ds.length) (.ok true) ++ List.replicate (n - ds.length) (.ok false) := by
  simp [answers, Function.comp_def]

end Merge

theorem FetchWindow.Serves.answers {fetch : FetchWindow σ} (hf : fetch.Serves rowsOf In False) :
    fetch.Answers (·.Answered rowsOf) In := by
  intro m after limit s hs
  refine (hf m after limit s hs).mono ?_ fun _ _ h => h.1.elim
  rintro rows t ⟨rfl, ht⟩
  exact ⟨rfl, ht⟩

namespace MemoryLog

open Merge

variable {log : MemoryLog}

/-- A merge over the tables of a log is opened and called any number of times. Opening fetches the first
portion of each table, and every further portion is fetched in the call that delivers the last row of the
portion before it. Once a call has found nothing, each portion was fetched once, in their order, up to the
one that is short. Neither between calls nor within a call does a window hold more rows than a portion. -/
theorem reading_looksAhead (h : log.Coherent)
    (hmax : ∀ name, ∀ r ∈ log.pending name, r.sequence ≠ Int64.maxValue) {models : List LogModel}
    (hnd : (models.map (·.logTable)).Nodup) {size : Nat} (hsize : 0 < size) :
    let rowsOf := fun m : LogModel => log.pending m.logTable
    let begun := opening store.fetch models size ⟨log, []⟩
    let total := (models.flatMap rowsOf).length
    begun = models.map (portion rowsOf size · 0) ∧
      ∃ t, start store.fetch (Merge.new models size, ⟨log, []⟩) = .ok () t ∧ ∀ n,
        let H := turns store.fetch n t
        let m := (called store.fetch n t).1
        H.map (·.result) =
            List.replicate (min n total) (.ok true) ++ List.replicate (n - total) (.ok false) ∧
          (∀ u ∈ H, u.Refills rowsOf models size) ∧
          (total < n → ∀ model ∈ models, ofTable model (begun ++ H.flatMap (·.fetches)) =
            (List.range ((rowsOf model).length / size + 1)).map (portion rowsOf size model)) ∧
          m.Bounded size ∧ m.asking.Bounded size := by
  intro rowsOf begun total
  have hserves := fetch_serves (store_holds log False)
  have hf := hserves.answers
  have hasc : ∀ m : LogModel, Ascending (rowsOf m) := fun m => pending_ascending h m.logTable
  have hmax' : ∀ m : LogModel, ∀ r ∈ rowsOf m, r.sequence ≠ Int64.maxValue := fun m => hmax m.logTable
  have hstart := (Merge.start_ends hserves hasc hmax' models size (s := ⟨log, []⟩) rfl).and
    (start_unfinished store.fetch models size ⟨log, []⟩)
  obtain ⟨_, ⟨m₀, s₀⟩, hopened, ⟨hreads, hs⟩, hfin⟩ :=
    (hstart.mono (fun _ _ h => h) fun _ _ h => h.1.1).exists_ok
  obtain ⟨hbegun, hpaced⟩ := paced_start hasc hmax' hsize hnd hf rfl hopened
  refine ⟨hbegun, (m₀, s₀), hopened, fun n => ?_⟩
  obtain ⟨hrefills, hend⟩ := hpaced.turns hasc hmax' hsize hnd hf n hs
  rw [List.nil_append] at hend
  have hresults : (turns store.fetch n (m₀, s₀)).map (·.result) =
      List.replicate (min n total) (.ok true) ++ List.replicate (n - total) (.ok false) := by
    have hcalls := calls_ends hserves hasc hmax' n hreads hfin hs
    obtain ⟨as, u, has, rfl⟩ := hcalls.exists_ok
    rw [results_of_calls has, results_answers, length_merged, ← List.flatMap_def]
  refine ⟨hresults, hrefills, fun hn model hmodel => ?_, hend.bounded⟩
  have hlast : (.ok false : Except Failure Bool) ∈ (turns store.fetch n (m₀, s₀)).map (·.result) := by
    rw [hresults]
    exact List.mem_append_right _ (List.mem_replicate.2 ⟨by omega, rfl⟩)
  exact hend.total hsize (List.mem_map.1 hlast) hmodel

end MemoryLog

end ChangeFeed

namespace ChangeFeed.Sample

open Fetched Merge

theorem looksAhead_twoTables :
    let log := MemoryLog.ofRows twoTables
    let models := [placeLog, spellLog]
    log.Coherent ∧ (∀ name, ∀ r ∈ log.pending name, r.sequence ≠ Int64.maxValue) ∧
      (models.map (·.logTable)).Nodup ∧ 0 < 2 ∧
      ∃ t, start MemoryLog.store.fetch (Merge.new models 2, ⟨log, []⟩) = .ok () t ∧
        (turns MemoryLog.store.fetch 5 t).map (·.result) =
          [.ok true, .ok true, .ok true, .ok true, .ok false] ∧
        ofTable placeLog (opening MemoryLog.store.fetch models 2 ⟨log, []⟩ ++
            (turns MemoryLog.store.fetch 5 t).flatMap (·.fetches)) =
          [⟨placeLog, none, 2, .ok [placeLog.row (-2) .delete [.integer 8, .integer 42],
              placeLog.row 4 .insert [.integer 7, .integer 42]]⟩,
            ⟨placeLog, some 4, 2, .ok []⟩] := by
  intro log models
  have hc : log.Coherent := MemoryLog.coherent_ofRows _
  have hmax : ∀ name, ∀ r ∈ log.pending name, r.sequence ≠ Int64.maxValue := by
    intro name r hr
    obtain ⟨x, hx, rfl⟩ := MemoryLog.mem_pending_ofRows hr
    exact (by decide : ∀ x ∈ twoTables, x.2.sequence ≠ Int64.maxValue) x hx
  have hnd : (models.map (·.logTable)).Nodup := by decide
  obtain ⟨-, t, ht, hcalls⟩ := MemoryLog.reading_looksAhead hc hmax hnd (by decide : 0 < 2)
  obtain ⟨hresults, -, htotal, -⟩ := hcalls 5
  have hrows : log.pending placeLog.logTable = [placeLog.row (-2) .delete [.integer 8, .integer 42],
      placeLog.row 4 .insert [.integer 7, .integer 42]] := by decide
  have hplace := htotal (by decide) placeLog (List.mem_cons_self ..)
  simp only [hrows] at hplace
  refine ⟨hc, hmax, hnd, by decide, t, ht, hresults, hplace.trans ?_⟩
  simp [portion, hrows, List.range_succ, LogModel.row]

end ChangeFeed.Sample
