import ChangeFeed.Proofs.Log.Calls

namespace ChangeFeed

open Act LogRow

theorem Window.lt_of_beyond_lastOf {rows : List LogRow} (h : Ascending rows) {last : Option Int64}
    {r : LogRow} (hr : beyond (lastOf last rows) r) : ∀ a ∈ rows, a.sequence < r.sequence := by
  induction rows generalizing last with
  | nil => simp
  | cons a rows ih =>
      obtain ⟨ha, hrows⟩ := List.pairwise_cons.1 h
      refine List.forall_mem_cons.2 ⟨?_, ih hrows hr⟩
      have hafter : beyond (some a.sequence) r :=
        beyond_of_lastOf hrows (fun x hx => by simpa [beyond] using ha x hx) hr
      simpa [beyond] using hafter

namespace Delivery

theorem lt_irrefl (d : Delivery) : ¬ lt d d := by
  rintro (h | ⟨-, h⟩)
  · exact Int64.lt_irrefl h
  · exact Nat.lt_irrefl _ h

theorem lt_of_lt_of_sequence {d e : Delivery} (h : lt d e) {r : LogRow} (hr : e.2.sequence < r.sequence)
    (i : Nat) : lt d (i, r) := by
  rcases h with h | ⟨h, -⟩
  · exact .inl (Int64.lt_trans h hr)
  · exact .inl (show d.2.sequence < r.sequence from h ▸ hr)

end Delivery

namespace Merge

namespace Turn

def delivered (t : Turn) : Option Delivery :=
  match t.result with
  | .ok true => t.current
  | _ => none

/-- The row that a failed call has taken out of its window. -/
def lost (t : Turn) : Option Delivery :=
  match t.result with
  | .error _ => t.taken
  | .ok _ => none

def fetchesAt (t : Turn) (i : Nat) : List Fetched :=
  if t.taken.map (·.1) = some i then t.fetches else []

end Turn

def takenIn (H : List Turn) : List Delivery := H.filterMap (·.taken)

def deliveredIn (H : List Turn) : List Delivery := H.filterMap (·.delivered)

def lostIn (H : List Turn) : List Delivery := H.filterMap (·.lost)

def fetchesAt (begun : List Fetched) (H : List Turn) (i : Nat) : List Fetched :=
  begun[i]?.toList ++ H.flatMap (·.fetchesAt i)

/-- The rows that were fetched from the table at a position, from the opening on. -/
def rowsAt (begun : List Fetched) (H : List Turn) (i : Nat) : List LogRow :=
  (fetchesAt begun H i).flatMap (·.rows)

/-- A call that comes after others, over `n` tables. If it delivers a row, all fetched rows with a
smaller id were delivered before. If it finds no more rows, it fetches nothing, all fetched rows were
delivered, and the last fetch of every table succeeded and came back short. Rows that are `lost`, and
their tables, are left out of account. -/
structure Complete (lost : List Delivery) (n : Nat) (begun : List Fetched) (past : List Turn)
    (t : Turn) : Prop where
  delivered : ∀ d ∈ t.delivered, ∀ i < n, ∀ r ∈ rowsAt begun (past ++ [t]) i,
    r.sequence < d.2.sequence → (i, r) ∈ deliveredIn past ∨ (i, r) ∈ lost
  idle : t.result = .ok false → t.fetches = []
  drained : t.result = .ok false → ∀ i < n, ∀ r ∈ rowsAt begun past i,
    (i, r) ∈ deliveredIn past ∨ (i, r) ∈ lost
  finished : t.result = .ok false → ∀ i < n,
    (∃ f, (fetchesAt begun past i).getLast? = some f ∧ f.Short) ∨ ∃ r, (i, r) ∈ lost

variable {σ : Type} {begun : List Fetched} {past : List Turn} {t : Turn} {m m' : Merge} {i k : Nat}
  {w w' : Window}

theorem fetchesAt_concat (begun : List Fetched) (past : List Turn) (t : Turn) (i : Nat) :
    fetchesAt begun (past ++ [t]) i = fetchesAt begun past i ++ t.fetchesAt i := by
  simp [fetchesAt]

theorem rowsAt_concat (begun : List Fetched) (past : List Turn) (t : Turn) (i : Nat) :
    rowsAt begun (past ++ [t]) i = rowsAt begun past i ++ (t.fetchesAt i).flatMap (·.rows) := by
  simp [rowsAt, fetchesAt_concat]

theorem takenIn_concat (past : List Turn) (t : Turn) :
    takenIn (past ++ [t]) = takenIn past ++ t.taken.toList := by
  cases h : t.taken <;> simp [takenIn, h]

theorem deliveredIn_concat (past : List Turn) (t : Turn) :
    deliveredIn (past ++ [t]) = deliveredIn past ++ t.delivered.toList := by
  cases h : t.delivered <;> simp [deliveredIn, h]

theorem lostIn_concat (past : List Turn) (t : Turn) :
    lostIn (past ++ [t]) = lostIn past ++ t.lost.toList := by
  cases h : t.lost <;> simp [lostIn, h]

def takenAt (H : List Turn) (i : Nat) : List LogRow :=
  (takenIn H).filterMap fun d => if d.1 = i then some d.2 else none

theorem mem_takenAt {r : LogRow} : r ∈ takenAt past i ↔ (i, r) ∈ takenIn past := by
  rw [takenAt, List.mem_filterMap]
  constructor
  · rintro ⟨⟨j, s⟩, hd, he⟩
    by_cases hj : j = i
    · simp only [if_pos hj] at he
      cases he
      exact hj ▸ hd
    · simp [hj] at he
  · exact fun h => ⟨(i, r), h, by simp⟩

/-- What is known of the window at a position after some calls: the rows it holds are those that were
fetched for it and not taken, and it is empty only if its table has no more rows or a row of it was
lost. -/
structure Holds (begun : List Fetched) (past : List Turn) (i : Nat) (w : Window) : Prop where
  rows : rowsAt begun past i = takenAt past i ++ w.rows
  ascending : Ascending (rowsAt begun past i)
  lastSeen : w.lastSeen = Window.lastOf none (rowsAt begun past i)
  exhausted : w.exhausted = true → ∃ f, (fetchesAt begun past i).getLast? = some f ∧ f.Short
  empty : w.rows = [] → w.exhausted = true ∨ ∃ r, (i, r) ∈ lostIn past
  abandoned : ∀ r, (i, r) ∈ lostIn past → w.rows = [] ∧ (takenAt past i).getLast? = some r

/-- Every row that was taken was delivered or lost, and at most one of each table is lost. -/
structure Balanced (past : List Turn) : Prop where
  split : ∀ d, d ∈ takenIn past ↔ d ∈ deliveredIn past ∨ d ∈ lostIn past
  disjoint : ∀ d ∈ lostIn past, d ∉ deliveredIn past
  once : ((lostIn past).map (·.1)).Nodup

/-- The invariant of the calls. The rows that were taken come before all that are still held. -/
structure Accounts (begun : List Fetched) (past : List Turn) (m : Merge) : Prop
    extends Balanced past where
  opened : m.opened = true
  size_pos : 0 < m.size
  finished : m.finished = true → ∀ w ∈ m.windows, w.rows = []
  windows : ∀ i w, m.windows[i]? = some w → Holds begun past i w
  placed : ∀ d ∈ takenIn past, d.1 < m.windows.length
  order : ∀ d ∈ takenIn past, ∀ i w, m.windows[i]? = some w → ∀ r ∈ w.rows, Delivery.lt d (i, r)

theorem Turn.taken_of_lost {d : Delivery} (h : d ∈ t.lost) : d ∈ t.taken := by
  rw [Turn.lost] at h
  cases hr : t.result with
  | error e => simpa [hr] using h
  | ok more => simp [hr] at h

theorem takenAt_concat (past : List Turn) (t : Turn) (i : Nat) : takenAt (past ++ [t]) i =
    takenAt past i ++ t.taken.toList.filterMap fun d => if d.1 = i then some d.2 else none := by
  rw [takenAt, takenIn_concat, List.filterMap_append, takenAt]

theorem Holds.concat_of_ne (h : Holds begun past i w) (hi : ∀ d ∈ t.taken, d.1 ≠ i) :
    Holds begun (past ++ [t]) i w := by
  have hfetches : t.fetchesAt i = [] := by
    rw [Turn.fetchesAt]
    cases ht : t.taken with
    | none => rfl
    | some d => exact if_neg (by simpa using hi d ht)
  have hfetched : fetchesAt begun (past ++ [t]) i = fetchesAt begun past i := by
    rw [fetchesAt_concat, hfetches, List.append_nil]
  have hrows : rowsAt begun (past ++ [t]) i = rowsAt begun past i := by rw [rowsAt, hfetched, rowsAt]
  have htaken : takenAt (past ++ [t]) i = takenAt past i := by
    rw [takenAt_concat]
    cases ht : t.taken with
    | none => simp
    | some d => simp [hi d ht]
  have hlost (r : LogRow) : (i, r) ∈ lostIn (past ++ [t]) ↔ (i, r) ∈ lostIn past := by
    rw [lostIn_concat, List.mem_append, Option.mem_toList]
    exact or_iff_left fun hl => hi _ (Turn.taken_of_lost hl) rfl
  constructor
  case rows => rw [hrows, htaken, h.rows]
  case ascending => exact hrows ▸ h.ascending
  case lastSeen => rw [hrows, h.lastSeen]
  case exhausted => exact hfetched ▸ h.exhausted
  case empty => exact fun hw => (h.empty hw).imp_right fun ⟨r, hr⟩ => ⟨r, (hlost r).2 hr⟩
  case abandoned => exact fun r hr => htaken ▸ h.abandoned r ((hlost r).1 hr)

structure Turn.Takes (t : Turn) (k : Nat) (row : LogRow) (w w' : Window) : Prop where
  taken : t.taken = some (k, row)
  rows : ∃ rest, w.rows = row :: rest ∧ w'.rows = rest ++ t.fetches.flatMap (·.rows)
  ascending : Ascending (t.fetches.flatMap (·.rows))
  beyond : ∀ r ∈ t.fetches.flatMap (·.rows), Window.beyond w.lastSeen r
  lastSeen : w'.lastSeen = Window.lastOf w.lastSeen (t.fetches.flatMap (·.rows))
  exhausted : w'.exhausted = true → t.fetches = [] ∧ w.exhausted = true ∨
    ∃ f, t.fetches.getLast? = some f ∧ f.Short
  outcome : t.delivered = some (k, row) ∧ t.lost = none ∧ (w'.rows = [] → w'.exhausted = true) ∨
    t.delivered = none ∧ t.lost = some (k, row) ∧ w'.rows = []

theorem Turn.Takes.delivered_or_lost {row : LogRow} (ht : t.Takes k row w w') (past : List Turn) :
    deliveredIn (past ++ [t]) = deliveredIn past ++ [(k, row)] ∧ lostIn (past ++ [t]) = lostIn past ∧
        (w'.rows = [] → w'.exhausted = true) ∨
      deliveredIn (past ++ [t]) = deliveredIn past ∧ lostIn (past ++ [t]) = lostIn past ++ [(k, row)] ∧
        w'.rows = [] := by
  rw [deliveredIn_concat, lostIn_concat]
  rcases ht.outcome with ⟨hd, hl, hempty⟩ | ⟨hd, hl, hempty⟩
  · exact .inl ⟨by rw [hd, Option.toList_some], by rw [hl, Option.toList_none, List.append_nil], hempty⟩
  · exact .inr ⟨by rw [hd, Option.toList_none, List.append_nil], by rw [hl, Option.toList_some], hempty⟩

theorem Holds.concat_of_takes (h : Holds begun past k w) {row : LogRow} (ht : t.Takes k row w w') :
    Holds begun (past ++ [t]) k w' := by
  obtain ⟨rest, hw, hw'⟩ := ht.rows
  have hfetches : t.fetchesAt k = t.fetches := by simp [Turn.fetchesAt, ht.taken]
  have hfetched : fetchesAt begun (past ++ [t]) k = fetchesAt begun past k ++ t.fetches := by
    rw [fetchesAt_concat, hfetches]
  have hrows : rowsAt begun (past ++ [t]) k =
      rowsAt begun past k ++ t.fetches.flatMap (·.rows) := by rw [rowsAt_concat, hfetches]
  have htaken : takenAt (past ++ [t]) k = takenAt past k ++ [row] := by
    simp [takenAt_concat, ht.taken]
  constructor
  case rows => rw [hrows, htaken, h.rows, hw, hw']; simp
  case ascending =>
    rw [hrows]
    refine List.pairwise_append.2 ⟨h.ascending, ht.ascending, fun a ha r hr => ?_⟩
    exact Window.lt_of_beyond_lastOf h.ascending (h.lastSeen ▸ ht.beyond r hr) a ha
  case lastSeen =>
    rw [hrows, ht.lastSeen, h.lastSeen]
    exact (List.foldl_append ..).symm
  case exhausted =>
    intro he
    rw [hfetched]
    rcases ht.exhausted he with ⟨hnone, he⟩ | ⟨f, hf, hshort⟩
    · rw [hnone, List.append_nil]
      exact h.exhausted he
    · exact ⟨f, by rw [List.getLast?_append, hf]; rfl, hshort⟩
  case empty =>
    intro hempty
    rcases ht.delivered_or_lost past with ⟨-, -, he⟩ | ⟨-, hlost, -⟩
    · exact .inl (he hempty)
    · exact .inr ⟨row, by simp [hlost]⟩
  case abandoned =>
    intro r hr
    have hpast : (k, r) ∉ lostIn past := fun hr => by
      rw [(h.abandoned r hr).1] at hw
      cases hw
    rcases ht.delivered_or_lost past with ⟨-, hlost, -⟩ | ⟨-, hlost, hempty⟩
    · exact absurd (hlost ▸ hr) hpast
    · rw [hlost, List.mem_append, or_iff_right hpast, List.mem_singleton] at hr
      cases hr
      exact ⟨hempty, by rw [htaken, List.getLast?_concat]⟩

theorem Holds.ascending_rows (h : Holds begun past i w) : Ascending w.rows :=
  (h.rows ▸ h.ascending).sublist (List.sublist_append_right ..)

theorem Holds.lt_of_takes (h : Holds begun past k w) {row : LogRow} (ht : t.Takes k row w w') :
    ∀ r ∈ w'.rows, row.sequence < r.sequence := by
  obtain ⟨rest, hw, hw'⟩ := ht.rows
  intro r hr
  rw [hw', List.mem_append] at hr
  rcases hr with hr | hr
  · exact (List.pairwise_cons.1 (hw ▸ h.ascending_rows)).1 r hr
  · refine Window.lt_of_beyond_lastOf h.ascending (h.lastSeen ▸ ht.beyond r hr) row ?_
    exact h.rows ▸ List.mem_append_right _ (hw ▸ List.mem_cons_self ..)

theorem Accounts.lt_of_leastHead (h : Accounts begun past m) {row : LogRow}
    (hl : leastHead 0 m.windows = some (k, row)) (hi : i ≠ k) (hw : m.windows[i]? = some w)
    {r : LogRow} (hr : r ∈ w.rows) : Delivery.lt (k, row) (i, r) := by
  have hasc := (h.windows i w hw).ascending_rows
  cases hheld : w.rows with
  | nil =>
      rw [hheld] at hr
      cases hr
  | cons first later =>
      have hle := (leastHead_eq_some hl).2 i w first later hw hheld
      rw [Nat.zero_add] at hle
      rw [hheld] at hr hasc
      have hfirst : Delivery.lt (k, row) (i, first) :=
        Delivery.lt_of_le_of_ne hle fun he => absurd he.symm hi
      rcases List.mem_cons.1 hr with rfl | hr
      · exact hfirst
      · exact Delivery.lt_of_lt_of_sequence hfirst ((List.pairwise_cons.1 hasc).1 r hr) i

theorem Accounts.notMem_takenIn (h : Accounts begun past m) (hk : m.windows[k]? = some w) {row : LogRow}
    (hrow : row ∈ w.rows) : (k, row) ∉ takenIn past :=
  fun hd => Delivery.lt_irrefl _ (h.order _ hd k w hk row hrow)

theorem Turn.Takes.takenIn_concat {row : LogRow} (ht : t.Takes k row w w') (past : List Turn) :
    takenIn (past ++ [t]) = takenIn past ++ [(k, row)] := by
  rw [Merge.takenIn_concat, ht.taken, Option.toList_some]

theorem Balanced.concat (h : Balanced past) {row : LogRow} (ht : t.Takes k row w w')
    (hfresh : (k, row) ∉ takenIn past) (hnone : ∀ r, (k, r) ∉ lostIn past) : Balanced (past ++ [t]) := by
  rcases ht.delivered_or_lost past with ⟨hdelivered, hlost, -⟩ | ⟨hdelivered, hlost, -⟩
  · refine ⟨fun d => ?_, ?_, hlost ▸ h.once⟩
    · simp only [ht.takenIn_concat, hdelivered, hlost, List.mem_append, h.split, or_right_comm]
    · intro d hd hd'
      rw [hlost] at hd
      rw [hdelivered, List.mem_append, List.mem_singleton] at hd'
      rcases hd' with hd' | rfl
      · exact h.disjoint d hd hd'
      · exact hfresh ((h.split _).2 (.inr hd))
  · refine ⟨fun d => ?_, ?_, ?_⟩
    · simp [ht.takenIn_concat, hdelivered, hlost, h.split, or_assoc]
    · intro d hd hd'
      rw [hdelivered] at hd'
      rw [hlost, List.mem_append, List.mem_singleton] at hd
      rcases hd with hd | rfl
      · exact h.disjoint d hd hd'
      · exact hfresh ((h.split _).2 (.inl hd'))
    · rw [hlost, List.map_append, List.map_singleton]
      refine List.nodup_append.2 ⟨h.once, List.pairwise_singleton _ k, ?_⟩
      rintro _ hj _ hk rfl
      obtain ⟨⟨j, r⟩, hr, rfl⟩ := List.mem_map.1 hj
      obtain rfl := List.mem_singleton.1 hk
      exact hnone r hr

section

variable (h : Accounts begun past m) (hk : m.windows[k]? = some w) {row : LogRow}
  (ht : t.Takes k row w w') (current : Option Delivery)
include hk

theorem getElem?_put (w' : Window) (i : Nat) :
    (m.put k w' current).windows[i]? = if k = i then some w' else m.windows[i]? := by
  obtain ⟨hlength, -⟩ := List.getElem?_eq_some_iff.1 hk
  rw [put, List.getElem?_set]
  by_cases hi : k = i
  · rw [if_pos hi, if_pos hlength, if_pos hi]
  · rw [if_neg hi, if_neg hi]

include h ht

theorem Accounts.holds_put {x : Window} (hx : (m.put k w' current).windows[i]? = some x) :
    Holds begun (past ++ [t]) i x := by
  rw [getElem?_put hk] at hx
  by_cases hi : k = i
  · rw [if_pos hi] at hx
    cases hx
    exact hi ▸ (h.windows k w hk).concat_of_takes ht
  · rw [if_neg hi] at hx
    refine (h.windows i x hx).concat_of_ne fun d hd => ?_
    rw [ht.taken] at hd
    cases hd
    exact hi

theorem Accounts.lt_put (hl : leastHead 0 m.windows = some (k, row)) {d : Delivery}
    (hd : d ∈ takenIn (past ++ [t])) {x : Window}
    (hx : (m.put k w' current).windows[i]? = some x) {r : LogRow} (hr : r ∈ x.rows) :
    Delivery.lt d (i, r) := by
  rw [ht.takenIn_concat, List.mem_append, List.mem_singleton] at hd
  rw [getElem?_put hk] at hx
  by_cases hi : k = i
  · rw [if_pos hi] at hx
    cases hx
    have hafter := (h.windows k w hk).lt_of_takes ht r hr
    rcases hd with hd | rfl
    · obtain ⟨rest, hw, -⟩ := ht.rows
      have hrow : row ∈ w.rows := hw ▸ List.mem_cons_self ..
      exact Delivery.lt_of_lt_of_sequence (h.order d hd k w hk row hrow) hafter i
    · exact .inl hafter
  · rw [if_neg hi] at hx
    rcases hd with hd | rfl
    · exact h.order d hd i x hx r hr
    · exact h.lt_of_leastHead hl (Ne.symm hi) hx hr

theorem Accounts.concat_of_takes (hl : leastHead 0 m.windows = some (k, row)) :
    Accounts begun (past ++ [t]) (m.put k w' current) := by
  have hrow : row ∈ w.rows := by
    obtain ⟨rest, hw, -⟩ := ht.rows
    exact hw ▸ List.mem_cons_self ..
  constructor
  case toBalanced =>
    refine h.concat ht (h.notMem_takenIn hk hrow) fun r hr => ?_
    -- a window that was abandoned has no head to take
    rw [((h.windows k w hk).abandoned r hr).1] at hrow
    cases hrow
  case opened => exact h.opened
  case size_pos => exact h.size_pos
  case finished =>
    intro hfin
    rw [h.finished hfin w (List.mem_of_getElem? hk)] at hrow
    cases hrow
  case windows => exact fun i x hx => h.holds_put hk ht current hx
  case placed =>
    intro d hd
    rw [put, List.length_set]
    rw [ht.takenIn_concat, List.mem_append, List.mem_singleton] at hd
    rcases hd with hd | rfl
    · exact h.placed d hd
    · exact (List.getElem?_eq_some_iff.1 hk).1
  case order => exact fun d hd i x hx r hr => h.lt_put hk ht current hl hd hx hr

end

theorem leastHead_of_empty {ws : List Window} (h : ∀ w ∈ ws, w.rows = []) (i : Nat) :
    leastHead i ws = none := by
  induction ws generalizing i with
  | nil => rfl
  | cons w ws ih =>
      obtain ⟨hw, hws⟩ := List.forall_mem_cons.1 h
      rw [leastHead, hw, ih hws]
      rfl

theorem Accounts.concat_of_none (h : Accounts begun past m) (ht : t.taken = none)
    (hdelivered : t.delivered = none) (hwindows : m'.windows = m.windows) (hopen : m'.opened = true)
    (hsize : m'.size = m.size) (hempty : m'.finished = true → ∀ w ∈ m.windows, w.rows = []) :
    Accounts begun (past ++ [t]) m' := by
  have hlost : t.lost = none := by
    cases hl : t.lost with
    | none => rfl
    | some d => cases ht.symm.trans (Turn.taken_of_lost hl)
  have htakenIn : takenIn (past ++ [t]) = takenIn past := by simp [takenIn_concat, ht]
  have hdeliveredIn : deliveredIn (past ++ [t]) = deliveredIn past := by
    simp [deliveredIn_concat, hdelivered]
  have hlostIn : lostIn (past ++ [t]) = lostIn past := by simp [lostIn_concat, hlost]
  constructor
  case opened => exact hopen
  case size_pos => exact hsize ▸ h.size_pos
  case finished => exact hwindows ▸ hempty
  case windows =>
    intro i w hw
    rw [hwindows] at hw
    exact (h.windows i w hw).concat_of_ne (by simp [ht])
  case placed => exact htakenIn ▸ hwindows ▸ h.placed
  case order => exact htakenIn ▸ hwindows ▸ h.order
  case toBalanced =>
    exact ⟨htakenIn ▸ hdeliveredIn ▸ hlostIn ▸ h.split, hlostIn ▸ hdeliveredIn ▸ h.disjoint,
      hlostIn ▸ h.once⟩

theorem Accounts.step (h : Accounts begun past m) (hs : Step m t m')
    (ht : ∀ f ∈ t.fetches, f.Orderly) : Accounts begun (past ++ [t]) m' := by
  cases hs with
  | ended hfin =>
      have hempty := h.finished hfin
      exact h.concat_of_none (leastHead_of_empty hempty 0) rfl rfl h.opened rfl fun _ => hempty
  | last hfin hl => exact h.concat_of_none rfl rfl rfl h.opened rfl fun _ => leastHead_eq_none hl
  | held hfin hl hw hrows hkeep =>
      refine h.concat_of_takes hw ?_ _ hl
      constructor
      case taken => rfl
      case rows => exact ⟨_, hrows, (List.append_nil _).symm⟩
      case ascending => exact .nil
      case beyond => simp
      case lastSeen => rfl
      case exhausted => exact fun he => .inl ⟨rfl, he⟩
      case outcome => exact .inl ⟨rfl, rfl, hkeep⟩
  | @filled i w w' row fetched hfin hl hw hrows hmore haccept =>
      obtain ⟨hasc, hbeyond, rfl⟩ := Window.accept_ok haccept
      have hfetched : [Fetched.mk w.model w.lastSeen m.size (.ok fetched)].flatMap (·.rows) = fetched :=
        List.append_nil _
      refine h.concat_of_takes hw ?_ _ hl
      constructor
      case taken => rfl
      case rows => exact ⟨[], hrows, by rw [hfetched]⟩
      case ascending => exact hfetched.symm ▸ hasc
      case beyond => exact hfetched.symm ▸ hbeyond
      case lastSeen => rw [hfetched]
      case exhausted => exact fun he => .inr ⟨_, rfl, fetched, rfl, of_decide_eq_true he⟩
      case outcome =>
        -- a fetch without rows is a short one
        refine .inl ⟨rfl, rfl, fun hempty => decide_eq_true ?_⟩
        rw [show fetched = [] from hempty]
        exact h.size_pos
  | @failed i w row answer e hfin hl hw hrows hmore hfail =>
      -- rows in order would have been taken in, so it is the fetch that failed
      have hanswer : ∃ e', answer = .error e' := by
        cases answer with
        | error e' => exact ⟨e', rfl⟩
        | ok fetched =>
            obtain ⟨hasc, hbeyond⟩ : Ascending fetched ∧ ∀ r ∈ fetched, Window.beyond w.lastSeen r :=
              ht _ (List.mem_singleton_self _)
            simp only [Except.bind, Window.accept, Window.ascend_eq hasc hbeyond] at hfail
            cases hfail
      obtain ⟨e', rfl⟩ := hanswer
      refine h.concat_of_takes hw ?_ _ hl
      constructor
      case taken => rfl
      case rows => exact ⟨[], hrows, rfl⟩
      case ascending => exact .nil
      case beyond => exact fun r hr => by cases hr
      case lastSeen => rfl
      case exhausted => exact fun he => by rw [hmore] at he; cases he
      case outcome => exact .inr ⟨rfl, rfl, rfl⟩

theorem accounts_start {fetch : FetchWindow σ} {models : List LogModel} {size : Nat} {s s' : σ}
    (h : start fetch (Merge.new models size, s) = .ok () (m, s')) :
    Accounts (opening fetch models size s) [] m := by
  obtain ⟨hopen, hfin, hsize, hbegun, -⟩ := start_ok h
  have hpos : 0 < m.size := by omega
  obtain ⟨hl, hat⟩ := List.forall₂_iff_get.1 hbegun
  constructor
  case opened => exact hopen
  case size_pos => exact hpos
  case finished => exact fun h => by rw [hfin] at h; cases h
  case windows =>
    intro i w hw
    obtain ⟨hi, rfl⟩ := List.getElem?_eq_some_iff.1 hw
    obtain ⟨rows, hf, haccept⟩ := hat i (hl ▸ hi) hi
    obtain ⟨hasc, -, hw'⟩ := Window.accept_ok haccept
    have hfetched : fetchesAt (opening fetch models size s) [] i =
        [⟨m.windows[i].model, none, m.size, .ok rows⟩] := by
      rw [fetchesAt, List.getElem?_eq_getElem (hl ▸ hi)]
      exact congrArg (fun f => [f]) hf
    have hrows : rowsAt (opening fetch models size s) [] i = rows := by
      rw [rowsAt, hfetched]
      exact List.append_nil _
    rw [show m.windows.get ⟨i, hi⟩ = m.windows[i] from rfl] at hw'
    constructor
    case rows => rw [hrows, hw']; rfl
    case ascending => exact hrows ▸ hasc
    case lastSeen => rw [hrows, hw']
    case exhausted =>
      intro he
      rw [hw'] at he
      exact ⟨_, by rw [hfetched]; rfl, rows, rfl, of_decide_eq_true he⟩
    case empty =>
      intro hempty
      rw [hw'] at hempty
      obtain rfl : rows = [] := hempty
      rw [hw']
      exact .inl (decide_eq_true hpos)
    case abandoned => exact fun r hr => by cases hr
  case placed => exact fun d hd => by cases hd
  case order => exact fun d hd => by cases hd
  case toBalanced =>
    exact ⟨fun d => by simp [takenIn, deliveredIn, lostIn], nofun, .nil⟩

theorem Step.taken_of_delivered (h : Step m t m') {d : Delivery} (hd : d ∈ t.delivered) :
    t.taken = some d := by
  cases h with
  | ended | last | failed => cases hd
  | held | filled =>
      cases hd
      rfl

theorem Step.length_windows (h : Step m t m') : m'.windows.length = m.windows.length := by
  cases h with
  | ended | last => rfl
  | held | filled | failed => exact List.length_set

theorem Accounts.empty_of_false (h : Accounts begun past m) (hs : Step m t m')
    (ht : t.result = .ok false) : ∀ w ∈ m.windows, w.rows = [] := by
  cases hs with
  | ended hfin => exact h.finished hfin
  | last hfin hl => exact leastHead_eq_none hl
  | held | filled | failed => cases ht

theorem Accounts.complete (h : Accounts begun past m) (hs : Step m t m')
    (h' : Accounts begun (past ++ [t]) m') :
    Complete (lostIn past) m.windows.length begun past t := by
  constructor
  case delivered =>
    intro d hd i hi r hr hlt
    have htaken : t.taken = some d := hs.taken_of_delivered hd
    have hall : takenIn (past ++ [t]) = takenIn past ++ [d] := by
      rw [takenIn_concat, htaken, Option.toList_some]
    have hi' : i < m'.windows.length := hs.length_windows ▸ hi
    have hw : m'.windows[i]? = some m'.windows[i] := List.getElem?_eq_getElem hi'
    rw [(h'.windows i _ hw).rows, List.mem_append] at hr
    rcases hr with hr | hr
    · rw [mem_takenAt, hall, List.mem_append, List.mem_singleton] at hr
      rcases hr with hr | rfl
      · exact (h.split _).1 hr
      · exact absurd hlt (Int64.lt_irrefl)
    · -- a row that is still held comes after the one that was delivered
      have hd' : d ∈ takenIn (past ++ [t]) := by simp [hall]
      rcases h'.order d hd' i _ hw r hr with hgt | ⟨heq, -⟩
      · exact absurd (Int64.lt_trans hlt hgt) Int64.lt_irrefl
      · exact absurd (heq ▸ hlt) Int64.lt_irrefl
  case idle =>
    intro ht
    cases hs with
    | ended | last => rfl
    | held | filled | failed => cases ht
  case drained =>
    intro ht i hi r hr
    have hw : m.windows[i]? = some m.windows[i] := List.getElem?_eq_getElem hi
    have hempty := h.empty_of_false hs ht _ (List.mem_of_getElem? hw)
    rw [(h.windows i _ hw).rows, hempty, List.append_nil, mem_takenAt] at hr
    exact (h.split _).1 hr
  case finished =>
    intro ht i hi
    have hw : m.windows[i]? = some m.windows[i] := List.getElem?_eq_getElem hi
    have hholds := h.windows i _ hw
    exact (hholds.empty (h.empty_of_false hs ht _ (List.mem_of_getElem? hw))).imp_left hholds.exhausted

theorem Accounts.turns (fetch : FetchWindow σ) {n : Nat} {s : σ} (h : Accounts begun past m)
    {more : List Turn} (hturns : turns fetch n (m, s) = more ++ [t])
    (horderly : ∀ f ∈ (more ++ [t]).flatMap (·.fetches), f.Orderly) :
    Complete (lostIn (past ++ more)) m.windows.length begun (past ++ more) t ∧
      ∃ m', Accounts begun (past ++ more ++ [t]) m' := by
  induction n generalizing m s past more with
  | zero => exact absurd hturns.symm (List.concat_ne_nil _ _)
  | succ n ih =>
      have hs := step_turn fetch s h.opened
      rw [Merge.turns] at hturns
      cases more with
      | nil =>
          obtain ⟨rfl, -⟩ := List.cons.inj hturns
          have h' := h.step hs fun f hf => horderly f (by simpa using hf)
          exact ⟨by simpa using h.complete hs h', _, by simpa using h'⟩
      | cons u more =>
          obtain ⟨rfl, hmore⟩ := List.cons.inj hturns
          rw [List.cons_append, List.flatMap_cons] at horderly
          have h' := h.step hs fun f hf => horderly f (List.mem_append_left _ hf)
          obtain ⟨hcomplete, m', hm'⟩ := ih h' hmore fun f hf => horderly f (List.mem_append_right _ hf)
          rw [hs.length_windows, List.append_assoc, List.singleton_append] at hcomplete
          rw [List.append_assoc past, List.singleton_append] at hm'
          exact ⟨hcomplete, m', hm'⟩

/-- Calls on an open merge may go on after a failed one. When one then delivers a row, all fetched rows
with a smaller id were delivered before. When one finds no more rows, all fetched rows were delivered,
and each table's last fetch came back short. The exceptions are the rows that failed calls had taken.
They are never delivered; there is at most one for each table, the last that was fetched from it. -/
theorem turns_account {fetch : FetchWindow σ} {models : List LogModel} {size n : Nat} {s s' : σ}
    (hstart : start fetch (Merge.new models size, s) = .ok () (m, s'))
    (hturns : turns fetch n (m, s') = past ++ [t])
    (horderly : ∀ f ∈ (past ++ [t]).flatMap (·.fetches), f.Orderly) :
    Complete (lostIn past) models.length (opening fetch models size s) past t ∧
      ((lostIn (past ++ [t])).map (·.1)).Nodup ∧
      ∀ i r, (i, r) ∈ lostIn (past ++ [t]) →
        (rowsAt (opening fetch models size s) (past ++ [t]) i).getLast? = some r ∧
          (i, r) ∉ deliveredIn (past ++ [t]) := by
  obtain ⟨-, -, -, -, hlength⟩ := start_ok hstart
  obtain ⟨hcomplete, m', h⟩ := (accounts_start hstart).turns fetch hturns horderly
  rw [List.nil_append] at hcomplete h
  refine ⟨hlength ▸ hcomplete, h.once, fun i r hr => ⟨?_, h.disjoint _ hr⟩⟩
  have hi : i < m'.windows.length := h.placed _ ((h.split _).2 (.inr hr))
  have hholds := h.windows i _ (List.getElem?_eq_getElem hi)
  obtain ⟨hempty, hlast⟩ := hholds.abandoned r hr
  rw [hholds.rows, hempty, List.append_nil, hlast]

end Merge

end ChangeFeed

namespace ChangeFeed.Sample

open Merge

def script : FetchWindow (List (Except Failure (List LogRow))) := fun _ _ _ answers =>
  match answers with
  | [] => .ok [] []
  | .ok rows :: rest => .ok rows rest
  | .error e :: rest => .error e rest

def firstPlace : LogRow := placeLog.row 1 .insert [.integer 7, .integer 42]

def diskError : Failure := .reported .database "disk I/O error"

def brokenRefill : List (Except Failure (List LogRow)) :=
  [.ok [firstPlace], .ok [spellLog.row 2 .insert [.integer 1]], .error diskError,
    .ok [spellLog.row 3 .delete [.integer 1]]]

def twoOpened := ((start script).outcome (Merge.new [placeLog, spellLog] 1, brokenRefill)).2

def lastTurn : Turn := ⟨none, [], .ok false, none⟩

theorem turns_brokenRefill :
    let begun := opening script [placeLog, spellLog] 1 brokenRefill
    let past := turns script 3 twoOpened
    start script (Merge.new [placeLog, spellLog] 1, brokenRefill) = .ok () twoOpened ∧
      turns script 4 twoOpened = past ++ [lastTurn] ∧
      (∀ f ∈ (past ++ [lastTurn]).flatMap (·.fetches), f.Orderly) ∧
      lostIn past = [(0, firstPlace)] ∧
      deliveredIn past =
        [(1, spellLog.row 2 .insert [.integer 1]), (1, spellLog.row 3 .delete [.integer 1])] ∧
      Complete (lostIn past) 2 begun past lastTurn ∧
      ((lostIn (past ++ [lastTurn])).map (·.1)).Nodup ∧
      ∀ i r, (i, r) ∈ lostIn (past ++ [lastTurn]) →
        (rowsAt begun (past ++ [lastTurn]) i).getLast? = some r ∧
          (i, r) ∉ deliveredIn (past ++ [lastTurn]) := by
  intro begun past
  have hstart : start script (Merge.new [placeLog, spellLog] 1, brokenRefill) = .ok () twoOpened := rfl
  have hturns : turns script 4 twoOpened = past ++ [lastTurn] := rfl
  have horderly : ∀ f ∈ (past ++ [lastTurn]).flatMap (·.fetches), f.Orderly := by decide
  exact ⟨hstart, hturns, horderly, by decide, by decide, turns_account hstart hturns horderly⟩

def placeOpened :=
  ((start script).outcome (Merge.new [placeLog] 1, [.ok [firstPlace], .error diskError])).2

def failedTurn : Turn where
  taken := some (0, firstPlace)
  fetches := [⟨placeLog, some 1, 1, .error diskError⟩]
  result := .error diskError
  current := none

/-- A call fails, and the one after it finds no more rows although a row was fetched. -/
theorem incomplete_brokenRefill :
    let answers := [.ok [firstPlace], .error diskError]
    start script (Merge.new [placeLog] 1, answers) = .ok () placeOpened ∧
      turns script 2 placeOpened = [failedTurn] ++ [lastTurn] ∧
      (∀ f ∈ ([failedTurn] ++ [lastTurn]).flatMap (·.fetches), f.Orderly) ∧
      failedTurn.result = .error diskError ∧ lastTurn.result = .ok false ∧
      ¬ Complete [] 1 (opening script [placeLog] 1 answers) [failedTurn] lastTurn := by
  intro answers
  refine ⟨rfl, rfl, by decide, rfl, rfl, fun h => ?_⟩
  have hfetched : firstPlace ∈ rowsAt (opening script [placeLog] 1 answers) [failedTurn] 0 := by decide
  rcases h.drained rfl 0 Nat.one_pos firstPlace hfetched with hdelivered | hlost
  · exact absurd hdelivered (by decide)
  · cases hlost

end ChangeFeed.Sample
