import ChangeFeed.Proofs.Fault
import ChangeFeed.Proofs.Observer
import ChangeFeed.Proofs.Recording

namespace ChangeFeed.Feed

open Act

variable {φ κ : Type}

/-- What was seen of one poll: the batches that the consumers were handed, and how it ended. -/
structure Polled where
  batches : List (List ChangeEvent)
  result : Except Failure PollReport

def Polled.delivered (q : Polled) : List ChangeEvent :=
  match q.result with
  | .ok _ => q.batches.flatten
  | .error _ => []

structure State (φ κ : Type) where
  store : φ × MemoryLog.Tx
  consumers : κ
  recorded : List Delivery := []
  polls : List Polled := []

inductive Step where
  | record (position : Nat) (eventType : EventType) (values : List IdValue)
  | poll

def Step.isRecord : Step → Bool
  | record .. => true
  | poll => false

def start (x : φ) (k : κ) : State φ κ := { store := (x, ⟨{}, []⟩), consumers := k }

namespace State

def log (s : State φ κ) : MemoryLog := s.store.2.log

def delivered (s : State φ κ) : List ChangeEvent := s.polls.flatMap (·.delivered)

def record (p : Poller κ) (s : State φ κ) (position : Nat) (eventType : EventType)
    (values : List IdValue) : State φ κ :=
  match p.models[position]? with
  | none => s
  | some m =>
    match s.log.record m eventType values with
    | .error _ => s
    | .ok (n, log) =>
      { s with
        store := (s.store.1, { s.store.2 with log })
        recorded := s.recorded ++ [(position, m.row n eventType values)] }

def attempt (p : Poller κ) (f : Faults φ) (s : State φ κ) :
    Except Failure PollReport × (φ × MemoryLog.Tx) × κ × List (List ChangeEvent) :=
  (p.observed.poll (f.store MemoryLog.store)).outcome (s.store, s.consumers, [])

def polled (p : Poller κ) (f : Faults φ) (s : State φ κ) : Polled :=
  ⟨(s.attempt p f).2.2.2, (s.attempt p f).1⟩

def poll (p : Poller κ) (f : Faults φ) (s : State φ κ) : State φ κ :=
  { s with
    store := (s.attempt p f).2.1
    consumers := (s.attempt p f).2.2.1
    polls := s.polls ++ [s.polled p f] }

def step (p : Poller κ) (f : Faults φ) (s : State φ κ) : Step → State φ κ
  | .record position eventType values => s.record p position eventType values
  | .poll => s.poll p f

def run (p : Poller κ) (f : Faults φ) (s : State φ κ) (steps : List Step) : State φ κ :=
  steps.foldl (step p f) s

def pending (p : Poller κ) (s : State φ κ) : List Delivery := s.log.merged p.models

def pendingCount (p : Poller κ) (s : State φ κ) : Nat :=
  (p.models.flatMap fun m => s.log.pending m.logTable).length

def pollsToDrain (p : Poller κ) (s : State φ κ) : Nat :=
  (s.pendingCount p + p.config.batchSize - 1) / p.config.batchSize

end State

variable {p : Poller κ} {f : Faults φ} {s : State φ κ} {Q : φ → Prop} {faulty : Prop}

theorem record_cases (p : Poller κ) (s : State φ κ) (position : Nat) (t : EventType)
    (values : List IdValue) : s.record p position t values = s ∨
      ∃ m n log, p.models[position]? = some m ∧ s.log.record m t values = .ok (n, log) ∧
        s.record p position t values = { s with
          store := (s.store.1, { s.store.2 with log })
          recorded := s.recorded ++ [(position, m.row n t values)] } := by
  rw [State.record]
  cases hm : p.models[position]? with
  | none => exact .inl rfl
  | some m =>
      dsimp only
      cases hr : s.log.record m t values with
      | error e => exact .inl rfl
      | ok r => exact .inr ⟨m, r.1, r.2, rfl, hr, rfl⟩

theorem outcome_poll (p : Poller κ) (f : Faults φ) (s : State φ κ) :
    (p.poll (f.store MemoryLog.store)).outcome (s.store, s.consumers) =
      ((s.polled p f).result, (s.poll p f).store, (s.poll p f).consumers) :=
  Poller.erases_poll p (f.store MemoryLog.store) (s.store, s.consumers, [])

theorem poll_spec (hf : f.Keeps Q faulty) (hQ : Q s.store.1) (hlog : s.log.Coherent)
    (hmax : ∀ name, ∀ r ∈ s.log.pending name, r.sequence = Int64.maxValue → faulty)
    (hp : p.Accepted) : Q (s.poll p f).store.1 ∧
      ((∃ b failures, (s.polled p f).result = .ok (b.report failures) ∧
          p.nextBatch s.log = .ok b ∧
          (s.poll p f).log = s.log.without (MemoryLog.keysOf p.models b.rows) ∧
          (s.polled p f).batches = b.handed) ∨
        ∃ e, (s.polled p f).result = .error e ∧ (s.poll p f).log = s.log ∧
          p.observed.Failed s.log faulty e (s.consumers, [])
            ((s.poll p f).consumers, (s.polled p f).batches)) := by
  have hS := Faults.store_holds hf (MemoryLog.store_holds s.log faulty)
  have hp' : p.observed.Accepted := ⟨hp.batch_pos, hp.valid, hp.nodup⟩
  have h := Poller.poll_ends hS hlog hmax hp' (s := (s.store, s.consumers, [])) ⟨hQ, rfl⟩
  rw [State.log, State.polled, State.poll]
  cases hr : p.observed.poll (f.store MemoryLog.store) (s.store, s.consumers, []) with
  | ok report t =>
      have ha : s.attempt p f = (.ok report, t) := by rw [State.attempt, outcome, hr]
      obtain ⟨b, failures, hb, hhand, rfl, hQ', hlog'⟩ := h.of_ok hr
      have hseen := (Poller.hand_observed_ends p b s.consumers []).of_ok hhand
      rw [ha]
      exact ⟨hQ', .inl ⟨b, failures, rfl, hb, hlog', hseen⟩⟩
  | error e t =>
      have ha : s.attempt p f = (.error e, t) := by rw [State.attempt, outcome, hr]
      obtain ⟨⟨hQ', hlog'⟩, hfail⟩ := h.of_error hr
      rw [ha]
      exact ⟨hQ', .inr ⟨e, rfl, hlog', hfail⟩⟩

theorem Polled.delivered_of_handed {q : Polled} {b : Batch} {report : PollReport}
    (hres : q.result = .ok report) (hseen : q.batches = b.handed) : q.delivered = b.events := by
  rw [Polled.delivered, hres, hseen, Batch.handed]
  by_cases he : b.events = [] <;> simp [he]

theorem batches_of_failed {log : MemoryLog} {e : Failure} {k k' : κ} {batches : List (List ChangeEvent)}
    (h : p.observed.Failed log faulty e (k, []) (k', batches)) :
    batches = [] ∨ ∃ b, p.nextBatch log = .ok b ∧ b.events ≠ [] ∧ batches = [b.events] := by
  rcases h with ⟨-, h⟩ | ⟨b, hb, h⟩
  · exact .inl (congrArg Prod.snd h)
  · have hseen : batches = b.handed := by
      rcases h with h | ⟨-, failures, h⟩
      · exact (Poller.hand_observed_ends p b k []).of_error h
      · exact (Poller.hand_observed_ends p b k []).of_ok h
    rw [Batch.handed] at hseen
    by_cases he : b.events = []
    · rw [if_pos he] at hseen
      exact .inl hseen
    · rw [if_neg he] at hseen
      exact .inr ⟨b, hb, he, hseen⟩

/-- The last batch that was handed out was `es`, and its poll failed. -/
def Owed (polls : List Polled) (es : List ChangeEvent) : Prop :=
  ∃ before q between e, polls = before ++ q :: between ∧ q.result = .error e ∧ q.batches = [es] ∧
    ∀ x ∈ between, x.batches = []

/-- A batch that is owed begins the next one that is handed out. -/
def Redelivers (polls : List Polled) : Prop :=
  ∀ before q after es es', polls = before ++ q :: after → Owed before es → q.batches = [es'] →
    es <+: es'

theorem owed_append {polls : List Polled} {q : Polled} {es : List ChangeEvent}
    (h : Owed (polls ++ [q]) es) :
    (q.batches = [] ∧ Owed polls es) ∨ ∃ e, q.result = .error e ∧ q.batches = [es] := by
  obtain ⟨before, q', between, e, hp, he, hb, hbetween⟩ := h
  rcases List.eq_nil_or_concat between with rfl | ⟨between, x, rfl⟩
  · obtain ⟨-, hq⟩ := List.append_inj' hp rfl
    cases hq
    exact .inr ⟨e, he, hb⟩
  · rw [List.concat_eq_append] at hp hbetween
    rw [← List.cons_append, ← List.append_assoc] at hp
    obtain ⟨hpolls, hq⟩ := List.append_inj' hp rfl
    cases hq
    obtain ⟨hbetween, hx⟩ := List.forall_mem_append.1 hbetween
    exact .inl ⟨hx q (List.mem_singleton_self q), before, q', between, e, hpolls, he, hb, hbetween⟩

theorem redelivers_append {polls : List Polled} {q : Polled} (h : Redelivers polls)
    (hq : ∀ es es', Owed polls es → q.batches = [es'] → es <+: es') : Redelivers (polls ++ [q]) := by
  intro before q' after es es' hp howed hb
  rcases List.eq_nil_or_concat after with rfl | ⟨after, x, rfl⟩
  · obtain ⟨rfl, hq'⟩ := List.append_inj' hp rfl
    cases hq'
    exact hq es es' howed hb
  · rw [List.concat_eq_append, ← List.cons_append, ← List.append_assoc] at hp
    obtain ⟨hp, -⟩ := List.append_inj' hp rfl
    exact h before q' after es es' hp howed hb

structure Inv (p : Poller κ) (s : State φ κ) : Prop where
  stamped : s.log.Stamped
  decodable : ∀ d ∈ s.recorded, ∃ es, d.events p.models = .ok es
  ledger : ∃ taken, s.recorded = taken ++ s.pending p ∧ decode p.models taken = .ok s.delivered
  owed : ∀ es, Owed s.polls es → es ≠ [] ∧ ∃ n ≤ p.config.batchSize, n ≤ (s.pending p).length ∧
    decode p.models ((s.pending p).take n) = .ok es
  redelivers : Redelivers s.polls
  batches : ∀ q ∈ s.polls, q.batches.length ≤ 1

theorem inv_start (x : φ) (k : κ) : Inv p (start x k) where
  stamped := MemoryLog.stamped_empty
  decodable d hd := by cases hd
  ledger := by
    refine ⟨[], ?_, rfl⟩
    rw [State.pending, show (start x k).log = {} from rfl, MemoryLog.merged_empty]
    rfl
  owed es h := by
    obtain ⟨before, q, between, e, hp, -⟩ := h
    simp [start] at hp
  redelivers before q after es es' hp := by simp [start] at hp
  batches q hq := by cases hq

theorem Inv.record (h : Inv p s) (hp : p.Accepted) (hmax : s.log.sequence ≠ Int64.maxValue)
    (position : Nat) (t : EventType) (values : List IdValue) :
    Inv p (s.record p position t values) := by
  rcases record_cases p s position t values with hs | ⟨m, n, log, hm, hr, hs⟩
  · rwa [hs]
  rw [hs]
  have hpending : log.merged p.models = s.pending p ++ [(position, m.row n t values)] :=
    MemoryLog.merged_record h.stamped hmax hp.nodup hm hr
  refine ⟨h.stamped.record hmax hr, ?_, ?_, ?_, h.redelivers, h.batches⟩
  · refine List.forall_mem_append.2 ⟨h.decodable, ?_⟩
    intro d hd
    rw [List.mem_singleton.1 hd]
    exact MemoryLog.events_record hp.valid hm hr
  · obtain ⟨taken, hrec, htaken⟩ := h.ledger
    refine ⟨taken, ?_, htaken⟩
    show s.recorded ++ [(position, m.row n t values)] = taken ++ log.merged p.models
    rw [hpending, hrec, List.append_assoc]
  · intro es howed
    obtain ⟨hes, j, hj, hlen, hd⟩ := h.owed es howed
    refine ⟨hes, j, hj, ?_, ?_⟩
    · show j ≤ (log.merged p.models).length
      rw [hpending, List.length_append]
      omega
    · show decode p.models ((log.merged p.models).take j) = .ok es
      rw [hpending, List.take_append_of_le_length hlen, hd]

theorem Inv.owed_prefix (h : Inv p s) {b : Batch} (hb : p.nextBatch s.log = .ok b)
    {es : List ChangeEvent} (howed : Owed s.polls es) : es <+: b.events := by
  obtain ⟨-, n, hn, -, hes⟩ := h.owed es howed
  have hsplit : p.nextRows s.log =
      (s.pending p).take n ++ (p.nextRows s.log).drop n := by
    calc p.nextRows s.log = (p.nextRows s.log).take n ++ (p.nextRows s.log).drop n :=
          (List.take_append_drop ..).symm
      _ = _ := by rw [Poller.nextRows, List.take_take, Nat.min_eq_left hn]; rfl
  have hdecode := Poller.decode_nextRows hb
  rw [hsplit, decode_append_ok] at hdecode
  obtain ⟨xs, ys, hx, -, he⟩ := hdecode
  cases hes.symm.trans hx
  exact ⟨ys, he.symm⟩

theorem delivered_poll (p : Poller κ) (f : Faults φ) (s : State φ κ) :
    (s.poll p f).delivered = s.delivered ++ (s.polled p f).delivered := by
  rw [State.delivered, State.poll, List.flatMap_append, List.flatMap_singleton]
  rfl

theorem Inv.taken (h : Inv p s) (hp : p.Accepted) {b : Batch} {report : PollReport}
    (hb : p.nextBatch s.log = .ok b) (hres : (s.polled p f).result = .ok report)
    (hlog : (s.poll p f).log = s.log.without (MemoryLog.keysOf p.models b.rows))
    (hseen : (s.polled p f).batches = b.handed) : Inv p (s.poll p f) where
  stamped := by
    rw [hlog]
    exact h.stamped.without _
  decodable := h.decodable
  ledger := by
    obtain ⟨taken, hrec, hledger⟩ := h.ledger
    refine ⟨taken ++ p.nextRows s.log, ?_, ?_⟩
    · rw [State.pending, hlog, Poller.merged_of_taken h.stamped.coherent hp hb, List.append_assoc]
      refine hrec.trans (congrArg (taken ++ ·) ?_)
      exact (List.take_append_drop ..).symm
    · rw [delivered_poll, Polled.delivered_of_handed hres hseen, decode_append_ok]
      exact ⟨_, _, hledger, Poller.decode_nextRows hb, rfl⟩
  owed es howed := by
    rcases owed_append howed with ⟨hnone, howed⟩ | ⟨e, he, -⟩
    · -- The poll would have handed out what is owed.
      obtain ⟨hes, -⟩ := h.owed es howed
      have hpre := h.owed_prefix hb howed
      rw [hseen, Batch.handed] at hnone
      by_cases he : b.events = []
      · rw [he] at hpre
        exact absurd (List.prefix_nil.1 hpre) hes
      · rw [if_neg he] at hnone
        cases hnone
    · rw [hres] at he
      cases he
  redelivers := by
    refine redelivers_append h.redelivers fun es es' howed hes' => ?_
    rw [hseen, Batch.handed] at hes'
    by_cases he : b.events = []
    · rw [if_pos he] at hes'
      cases hes'
    · rw [if_neg he] at hes'
      cases hes'
      exact h.owed_prefix hb howed
  batches := by
    refine List.forall_mem_append.2 ⟨h.batches, fun x hx => ?_⟩
    rw [List.mem_singleton.1 hx, hseen, Batch.handed]
    by_cases he : b.events = [] <;> simp [he]

theorem Inv.kept (h : Inv p s) {e : Failure} (hres : (s.polled p f).result = .error e)
    (hlog : (s.poll p f).log = s.log) (hseen : (s.polled p f).batches = [] ∨
      ∃ b, p.nextBatch s.log = .ok b ∧ b.events ≠ [] ∧ (s.polled p f).batches = [b.events]) :
    Inv p (s.poll p f) where
  stamped := by
    rw [hlog]
    exact h.stamped
  decodable := h.decodable
  ledger := by
    obtain ⟨taken, hrec, hledger⟩ := h.ledger
    have hqd : (s.polled p f).delivered = [] := by rw [Polled.delivered, hres]
    refine ⟨taken, ?_, ?_⟩
    · rw [State.pending, hlog]
      exact hrec
    · rw [delivered_poll, hqd, List.append_nil, hledger]
  owed es howed := by
    have hpending : (s.poll p f).pending p = s.pending p := by
      rw [State.pending, hlog]
      rfl
    rw [hpending]
    rcases owed_append howed with ⟨-, howed⟩ | ⟨e, -, hes⟩
    · exact h.owed es howed
    rcases hseen with hseen | ⟨b, hb, he, hseen⟩
    · rw [hseen] at hes
      cases hes
    · cases hes.symm.trans hseen
      refine ⟨he, (p.nextRows s.log).length, List.length_take_le .., ?_, ?_⟩
      · exact (List.take_sublist ..).length_le
      · rw [← Poller.decode_nextRows hb, Poller.nextRows, List.length_take]
        exact congrArg _ List.take_eq_take_min.symm
  redelivers := by
    refine redelivers_append h.redelivers fun es es' howed hes' => ?_
    rcases hseen with hseen | ⟨b, hb, -, hseen⟩
    · rw [hseen] at hes'
      cases hes'
    · cases hes'.symm.trans hseen
      exact h.owed_prefix hb howed
  batches := by
    refine List.forall_mem_append.2 ⟨h.batches, fun x hx => ?_⟩
    rw [List.mem_singleton.1 hx]
    rcases hseen with hseen | ⟨b, -, -, hseen⟩ <;> simp [hseen]

theorem Inv.poll (h : Inv p s) (hp : p.Accepted) (hf : f.Keeps Q faulty) (hQ : Q s.store.1)
    (hmax : ∀ name, ∀ r ∈ s.log.pending name, r.sequence = Int64.maxValue → faulty) :
    Inv p (s.poll p f) := by
  obtain ⟨-, ⟨b, failures, hres, hb, hlog, hseen⟩ | ⟨e, hres, hlog, hfail⟩⟩ :=
    poll_spec hf hQ h.stamped.coherent hmax hp
  · exact h.taken hp hb hres hlog hseen
  · exact h.kept hres hlog (batches_of_failed hfail)

theorem Inv.mem_recorded (h : Inv p s) {d : Delivery} (hd : d ∈ s.pending p) : d ∈ s.recorded := by
  obtain ⟨taken, hrec, -⟩ := h.ledger
  rw [hrec]
  exact List.mem_append_right _ hd

theorem Inv.nextBatch_ok (h : Inv p s) : ∃ b, p.nextBatch s.log = .ok b := by
  have hrows : ∀ d ∈ p.nextRows s.log, ∃ es, d.events p.models = .ok es := by
    intro d hd
    exact h.decodable d (h.mem_recorded (List.mem_of_mem_take hd))
  obtain ⟨es, hes⟩ := decode_ok_of_forall hrows
  exact Batch.foldlM_of_decode hes {}

section

variable {ask : FaultPoint → φ → Option Failure × φ}

/-- Nothing fails any more: neither a call of the log store nor a consumer. -/
structure Calm (p : Poller κ) (f : Faults φ) (s : State φ κ) : Prop where
  quiet : f.Quiet s.store.1
  healthy : ∀ c ∈ p.consumers, c.Healthy
  sequence : s.log.sequence ≠ Int64.maxValue

theorem poll_calm (h : Inv p s) (hp : p.Accepted) (hc : Calm p (.ofAsk ask) s) :
    Inv p (s.poll p (.ofAsk ask)) ∧ Calm p (.ofAsk ask) (s.poll p (.ofAsk ask)) ∧
      (s.poll p (.ofAsk ask)).pending p = (s.pending p).drop p.config.batchSize ∧
      ∃ report, (s.polled p (.ofAsk ask)).result = .ok report ∧
        report.rows = min p.config.batchSize (s.pending p).length := by
  have hf := Faults.keeps_quiet ask
  have hmax := h.stamped.no_maxValue hc.sequence
  obtain ⟨hquiet, hq⟩ := poll_spec hf hc.quiet h.stamped.coherent hmax hp
  refine ⟨h.poll hp hf hc.quiet hmax, ?_⟩
  rcases hq with ⟨b, failures, hres, hb, hlog, -⟩ | ⟨e, -, -, hfail⟩
  · have hseq : (s.poll p (.ofAsk ask)).log.sequence ≠ Int64.maxValue := by
      rw [hlog]
      exact hc.sequence
    refine ⟨⟨hquiet, hc.healthy, hseq⟩, ?_, _, hres, ?_⟩
    · rw [State.pending, hlog, Poller.merged_of_taken h.stamped.coherent hp hb]
      rfl
    rw [Batch.report, Poller.rows_of_nextBatch hb, Poller.nextRows, List.length_take]
    rfl
  · exfalso
    rcases hfail with ⟨hno | he, -⟩ | ⟨b, hb, he | ⟨hno, -⟩⟩
    · exact hno
    · obtain ⟨b, hb⟩ := h.nextBatch_ok
      cases hb.symm.trans he
    · exact (Poller.hand_observed_healthy hc.healthy b _).of_error he
    · exact hno

theorem run_calm (h : Inv p s) (hp : p.Accepted) (hc : Calm p (.ofAsk ask) s) (j : Nat) :
    (s.run p (.ofAsk ask) (List.replicate j .poll)).pending p =
        (s.pending p).drop (j * p.config.batchSize) ∧
      ∃ reports : List PollReport, reports.length = j ∧
        (s.run p (.ofAsk ask) (List.replicate j .poll)).polls.map (·.result) =
          s.polls.map (·.result) ++ reports.map .ok ∧
        ∀ i r, reports[i]? = some r →
          r.rows = min p.config.batchSize ((s.pending p).length - i * p.config.batchSize) := by
  induction j generalizing s with
  | zero => exact ⟨by simp [State.run], [], rfl, by simp [State.run], by simp⟩
  | succ j ih =>
      obtain ⟨h', hc', hpending, report, hres, hrows⟩ := poll_calm h hp hc
      obtain ⟨hpending', reports, hlen, hpolls', hrows'⟩ := ih h' hc'
      have hrun : s.run p (.ofAsk ask) (List.replicate (j + 1) .poll) =
          (s.poll p (.ofAsk ask)).run p (.ofAsk ask) (List.replicate j .poll) := rfl
      rw [hrun]
      refine ⟨?_, report :: reports, by rw [List.length_cons, hlen], ?_, ?_⟩
      · rw [hpending', hpending, List.drop_drop, Nat.succ_mul, Nat.add_comm]
      · rw [hpolls', State.poll, List.map_append, List.map_singleton, hres, List.append_assoc]
        rfl
      · intro i r hr
        cases i with
        | zero =>
            cases hr
            simpa using hrows
        | succ i =>
            rw [hrows' i r hr, hpending, List.length_drop, Nat.succ_mul, Nat.sub_sub, Nat.add_comm]

theorem record_sequence (h : s.log.sequence ≠ Int64.maxValue) (position : Nat) (t : EventType)
    (values : List IdValue) :
    (s.record p position t values).log.sequence.toInt ≤ s.log.sequence.toInt + 1 := by
  rcases record_cases p s position t values with hs | ⟨m, n, log, -, hr, hs⟩
  · rw [hs]
    omega
  · rw [hs]
    exact Int.le_of_eq (MemoryLog.sequence_record h hr)

theorem poll_sequence (h : Inv p s) (hp : p.Accepted) :
    (s.poll p (.ofAsk ask)).log.sequence = s.log.sequence := by
  obtain ⟨-, ⟨b, failures, -, -, hlog, -⟩ | ⟨e, -, hlog, -⟩⟩ :=
    poll_spec (Faults.keeps_ofAsk ask) trivial h.stamped.coherent (fun _ _ _ _ => trivial) hp
  · rw [hlog]
    rfl
  · rw [hlog]

theorem run_inv (h : Inv p s) (hp : p.Accepted) (steps : List Step)
    (hcount : s.log.sequence.toInt + steps.countP (·.isRecord) < Int64.maxValue.toInt) :
    Inv p (s.run p (.ofAsk ask) steps) ∧
      (s.run p (.ofAsk ask) steps).log.sequence ≠ Int64.maxValue := by
  have hne : s.log.sequence ≠ Int64.maxValue := by
    intro he
    rw [he] at hcount
    omega
  induction steps generalizing s with
  | nil => exact ⟨h, hne⟩
  | cons step steps ih =>
      have hnext : Inv p (s.step p (.ofAsk ask) step) ∧
          (s.step p (.ofAsk ask) step).log.sequence.toInt + steps.countP (·.isRecord) <
            Int64.maxValue.toInt := by
        cases step with
        | record position t values =>
            have hseq := record_sequence hne position t values (p := p)
            rw [List.countP_cons_of_pos rfl] at hcount
            refine ⟨h.record hp hne position t values, ?_⟩
            show (s.record p position t values).log.sequence.toInt + _ < _
            omega
        | poll =>
            refine ⟨h.poll hp (Faults.keeps_ofAsk ask) trivial (fun _ _ _ _ => trivial), ?_⟩
            show (s.poll p (.ofAsk ask)).log.sequence.toInt + _ < _
            rwa [poll_sequence h hp, ← show (Step.poll :: steps).countP (·.isRecord) =
              steps.countP (·.isRecord) from rfl]
      have hne' : (s.step p (.ofAsk ask) step).log.sequence ≠ Int64.maxValue := by
        intro he
        rw [he] at hnext
        omega
      exact ih hnext.1 hnext.2 hne'

theorem length_pending (p : Poller κ) (s : State φ κ) :
    (s.pending p).length = s.pendingCount p := by
  rw [State.pending, MemoryLog.merged, Merge.length_merged, ← List.flatMap_def]
  rfl

theorem lt_pollsToDrain (hp : p.Accepted) (s : State φ κ) (i : Nat) :
    i < s.pollsToDrain p ↔ 0 < (s.pending p).length - i * p.config.batchSize := by
  have hb := hp.batch_pos
  rw [State.pollsToDrain, ← length_pending, Nat.lt_iff_add_one_le, Nat.le_div_iff_mul_le hb,
    Nat.succ_mul]
  omega

/-- What holds at every point of a run. -/
structure Faithful (p : Poller κ) (f : Faults φ) (s : State φ κ) : Prop where
  /-- The next poll ends as it ends without an observer. -/
  unobserved : (p.poll (f.store MemoryLog.store)).outcome (s.store, s.consumers) =
    ((s.polled p f).result, (s.poll p f).store, (s.poll p f).consumers)
  /-- What was delivered, followed by what is pending, is what was recorded. -/
  complete : ∃ es, decode p.models (s.pending p) = .ok es ∧
    decode p.models s.recorded = .ok (s.delivered ++ es)
  /-- A poll that fails takes nothing away. -/
  kept : ∀ e, (s.polled p f).result = .error e → (s.poll p f).log = s.log
  batches : ∀ q ∈ s.polls, q.batches.length ≤ 1
  redelivers : Redelivers s.polls
  /-- When nothing fails any more, the next `n / b` polls, rounded up, are those with rows. -/
  drained : f.Quiet s.store.1 → (∀ c ∈ p.consumers, c.Healthy) → ∀ j,
    ∃ reports : List PollReport, reports.length = j ∧
      (s.run p f (List.replicate j .poll)).polls.map (·.result) =
        s.polls.map (·.result) ++ reports.map .ok ∧
      (∀ i r, reports[i]? = some r → (r.isEmpty = false ↔ i < s.pollsToDrain p)) ∧
      (s.pollsToDrain p ≤ j → (s.run p f (List.replicate j .poll)).pending p = [])

theorem run_faithful {models : List LogModel} {consumers : List (Consumer κ)}
    {config : PollerConfig} (hp : Poller.make models consumers config = .ok p)
    (ask : FaultPoint → φ → Option Failure × φ) (x : φ) (k : κ) (steps : List Step)
    (hcount : steps.countP (·.isRecord) < Int64.maxValue.toInt) :
    Faithful p (.ofAsk ask) ((start x k).run p (.ofAsk ask) steps) := by
  obtain ⟨-, hp⟩ := Poller.make_ok hp
  have hstart : (start x k).log.sequence.toInt + steps.countP (·.isRecord) <
      Int64.maxValue.toInt := by
    rw [show (start x k).log.sequence.toInt = 0 from rfl]
    omega
  obtain ⟨h, hseq⟩ := run_inv (inv_start x k) hp steps hstart
  generalize (start x k).run p (.ofAsk ask) steps = s at h hseq ⊢
  refine ⟨?_, ?_, ?_, h.batches, h.redelivers, ?_⟩
  · exact outcome_poll p _ s
  · obtain ⟨taken, hrec, htaken⟩ := h.ledger
    obtain ⟨es, hes⟩ := decode_ok_of_forall fun d hd => h.decodable d (h.mem_recorded hd)
    refine ⟨es, hes, ?_⟩
    rw [hrec, decode_append_ok]
    exact ⟨_, _, htaken, hes, rfl⟩
  · intro e he
    obtain ⟨-, ⟨b, failures, hres, -⟩ | ⟨e, -, hlog, -⟩⟩ :=
      poll_spec (Faults.keeps_ofAsk ask) trivial h.stamped.coherent (fun _ _ _ _ => trivial) hp
    · cases he.symm.trans hres
    · exact hlog
  · intro hquiet hhealthy j
    obtain ⟨hpending, reports, hlen, hpolls, hrows⟩ := run_calm h hp ⟨hquiet, hhealthy, hseq⟩ j
    refine ⟨reports, hlen, hpolls, ?_, ?_⟩
    · intro i r hr
      have hb := hp.batch_pos
      rw [lt_pollsToDrain hp, PollReport.isEmpty, beq_eq_false_iff_ne, hrows i r hr]
      omega
    · intro hj
      have hnot : ¬ j < s.pollsToDrain p := by omega
      rw [lt_pollsToDrain hp] at hnot
      rw [hpending]
      exact List.drop_eq_nil_of_le (by omega)

end

end ChangeFeed.Feed

namespace ChangeFeed.Sample

open Feed

def reluctant : Consumer Nat where
  name := "reluctant"
  receive _ := do
    modify (· + 1)
    if (← get) = 1 then throw .notOpen

def placePoller : Poller Nat := ⟨[placeLog], [reluctant], { batchSize := 2 }⟩

def secondCommitFails : FaultPlan :=
  { faults := [(.storeCommit, { turn := 2, failure := .alreadyOpen })] }

def placeSteps : List Step :=
  [.record 0 .insert [.integer 7, .integer 42], .record 0 .update [.integer 7, .integer 43], .poll,
    .record 0 .delete [.integer 8, .integer 42], .poll, .poll]

theorem run_placeSteps :
    Poller.make [placeLog] [reluctant] { batchSize := 2 } = .ok placePoller ∧
      placeSteps.countP (·.isRecord) < Int64.maxValue.toInt ∧
      Faithful placePoller (.ofAsk FaultPlan.ask)
        ((start secondCommitFails 0).run placePoller (.ofAsk FaultPlan.ask) placeSteps) := by
  have hmake : Poller.make [placeLog] [reluctant] { batchSize := 2 } = .ok placePoller := rfl
  exact ⟨hmake, by decide, run_faithful hmake FaultPlan.ask secondCommitFails 0 placeSteps (by decide)⟩

end ChangeFeed.Sample
