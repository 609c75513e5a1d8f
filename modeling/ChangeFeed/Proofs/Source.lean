import ChangeFeed.Source

namespace ChangeFeed

inductive SourceCall where
  | start (runtime : Bool)
  | pause
  | resume
  deriving DecidableEq

namespace SourceCall

def apply : SourceCall → Source → Except Failure Source
  | start runtime, s => s.start runtime
  | pause, s => s.pause
  | resume, s => s.resume

def Moves : SourceCall → SourceState → SourceState → Prop
  | start runtime, source, target => runtime = true ∧ source = .new ∧ target = .running
  | pause, source, target => source = .running ∧ target = .paused
  | resume, source, target => source = .paused ∧ target = .running

end SourceCall

inductive SourceCaller where
  | free
  /-- A call of stop has not returned. It may have to wait for the loop. -/
  | stopping (waits : Bool)

structure Session where
  source : Source
  caller : SourceCaller := .free

inductive SourceEvent where
  | call (c : SourceCall) (outcome : Except Failure Unit)
  | stop
  | stopReturns
  | pass (span : Nat)
  | move
  | pollStarts
  | pollEnds (result : Except Failure PollReport)

namespace Session

/-- What can happen next. -/
inductive Step : Session → SourceEvent → Session → Prop
  | accept {s s' : Source} {c : SourceCall} (h : c.apply s = .ok s') :
    Step ⟨s, .free⟩ (.call c (.ok ())) ⟨s', .free⟩
  | refuse {s : Source} {c : SourceCall} {e : Failure} (h : c.apply s = .error e) :
    Step ⟨s, .free⟩ (.call c (.error e)) ⟨s, .free⟩
  | stop (s : Source) : Step ⟨s, .free⟩ .stop ⟨s.halt, .stopping (s.state ≠ .stopped)⟩
  | stopReturns {s : Source} {waits : Bool} (h : waits = true → s.isQuiet = true) :
    Step ⟨s, .stopping waits⟩ .stopReturns ⟨s, .free⟩
  | pass (s : Source) (caller : SourceCaller) (span : Nat) :
    Step ⟨s, caller⟩ (.pass span) ⟨s.pass span, caller⟩
  | begin {s : Source} {caller : SourceCaller} {seen : Nat} (h : s.loop = .ready seen) :
    Step ⟨s, caller⟩ .move ⟨s.begin, caller⟩
  | notice {s : Source} {caller : SourceCaller} {seen due : Nat} (h : s.loop = .waiting seen due)
    (hseen : seen ≠ s.changes) : Step ⟨s, caller⟩ .move ⟨s.notice, caller⟩
  | skip {s : Source} {caller : SourceCaller} {seen due : Nat} (h : s.loop = .waiting seen due)
    (hdue : due ≤ s.now) (hloop : ∀ seen, s.expire.loop ≠ .polling seen) :
    Step ⟨s, caller⟩ .move ⟨s.expire, caller⟩
  | poll {s : Source} {caller : SourceCaller} {seen due seen' : Nat} (h : s.loop = .waiting seen due)
    (hdue : due ≤ s.now) (hloop : s.expire.loop = .polling seen') :
    Step ⟨s, caller⟩ .pollStarts ⟨s.expire, caller⟩
  | finish {s : Source} {caller : SourceCaller} {seen : Nat} (h : s.loop = .polling seen)
    (result : Except Failure PollReport) :
    Step ⟨s, caller⟩ (.pollEnds result) ⟨s.finish result, caller⟩

inductive Steps (s : Session) : List (Nat × SourceEvent) → Session → Prop
  | refl : Steps s [] s
  | step {es : List (Nat × SourceEvent)} {e : SourceEvent} {t u : Session} (h : Steps s es t)
    (hstep : Step t e u) : Steps s (es ++ [(t.source.now, e)]) u

end Session

namespace SourceLoop

def seen? : SourceLoop → Option Nat
  | ready seen | waiting seen _ | polling seen => some seen
  | absent | ended => none

end SourceLoop

namespace Source

variable {s s' : Source} {seen due : Nat}

theorem transition_ok {source target : SourceState} (h : s.transition source target = .ok s') :
    s.state = source ∧ s' = s.setState target := by
  rw [transition] at h
  by_cases hs : s.state = source
  · rw [if_pos hs] at h
    cases h
    exact ⟨hs, rfl⟩
  · rw [if_neg hs] at h
    cases h

theorem transition_error {source target : SourceState} {e : Failure}
    (h : s.transition source target = .error e) : s.state ≠ source ∧ e.kind = .invalidState := by
  rw [transition] at h
  by_cases hs : s.state = source
  · rw [if_pos hs] at h
    cases h
  · rw [if_neg hs] at h
    cases h
    exact ⟨hs, rfl⟩

theorem start_ok {runtime : Bool} (h : s.start runtime = .ok s') :
    runtime = true ∧ s.state = .new ∧ s' = (s.setState .running).spawn := by
  rw [start] at h
  cases runtime with
  | false => cases h
  | true =>
      rw [if_pos rfl] at h
      cases ht : s.transition .new .running with
      | error e =>
          rw [ht] at h
          cases h
      | ok u =>
          rw [ht] at h
          cases h
          obtain ⟨hs, rfl⟩ := transition_ok ht
          exact ⟨rfl, hs, rfl⟩

theorem start_error {runtime : Bool} {e : Failure} (h : s.start runtime = .error e) :
    (runtime = false ∨ s.state ≠ .new) ∧ e.kind = .invalidState := by
  rw [start] at h
  cases runtime with
  | false =>
      cases h
      exact ⟨.inl rfl, rfl⟩
  | true =>
      rw [if_pos rfl] at h
      cases ht : s.transition .new .running with
      | ok u =>
          rw [ht] at h
          cases h
      | error f =>
          rw [ht] at h
          cases h
          obtain ⟨hs, hk⟩ := transition_error ht
          exact ⟨.inr hs, hk⟩

theorem begin_eq (h : s.loop = .ready seen) :
    s.begin = { s with loop := .waiting seen (s.now + s.interval) } := by
  rw [begin, h]

theorem notice_eq (h : s.loop = .waiting seen due) (hseen : seen ≠ s.changes) :
    s.notice = { s with loop := if s.state = .stopped then .ended else .ready s.changes } := by
  rw [notice, h]
  exact if_neg hseen

theorem finish_eq (h : s.loop = .polling seen) (result : Except Failure PollReport) :
    s.finish result = { s with loop := .ready seen, stats := s.stats.addResult result } := by
  rw [finish, h]

@[simp] theorem begin_state (s : Source) : s.begin.state = s.state := by
  rw [begin]
  split <;> rfl

@[simp] theorem notice_state (s : Source) : s.notice.state = s.state := by
  rw [notice]
  split
  next => split <;> rfl
  next => rfl

@[simp] theorem expire_state (s : Source) : s.expire.state = s.state := by
  rw [expire]
  split
  next =>
    split
    next => rfl
    next => split <;> rfl
  next => rfl

@[simp] theorem finish_state (s : Source) (result : Except Failure PollReport) :
    (s.finish result).state = s.state := by
  rw [finish]
  split <;> rfl

end Source

namespace SourceCall

variable {c : SourceCall} {s s' : Source}

theorem moves_of_apply (h : c.apply s = .ok s') : c.Moves s.state s'.state := by
  cases c with
  | start runtime =>
      obtain ⟨hr, hs, rfl⟩ := Source.start_ok h
      exact ⟨hr, hs, rfl⟩
  | pause | resume =>
      obtain ⟨hs, rfl⟩ := Source.transition_ok h
      exact ⟨hs, rfl⟩

theorem apply_error {e : Failure} (h : c.apply s = .error e) :
    e.kind = .invalidState ∧ ∀ target, ¬ c.Moves s.state target := by
  cases c with
  | start runtime =>
      obtain ⟨hs, hk⟩ := Source.start_error h
      refine ⟨hk, fun target hm => ?_⟩
      rcases hs with hs | hs
      · exact absurd (hs.symm.trans hm.1) Bool.false_ne_true
      · exact hs hm.2.1
  | pause | resume =>
      obtain ⟨hs, hk⟩ := Source.transition_error h
      exact ⟨hk, fun target hm => hs hm.1⟩

end SourceCall

namespace Source

/-- What holds of a source between any two steps. A loop that has looked at the latest change has not
seen that the source is stopped, so no change is overlooked. -/
structure Sound (s : Source) : Prop where
  absent : s.loop = .absent → s.state = .new ∨ s.state = .stopped
  new : s.state = .new → s.loop = .absent
  ended : s.loop = .ended → s.state = .stopped
  seen : ∀ n, s.loop.seen? = some n → n ≤ s.changes ∧ (n = s.changes → s.state ≠ .stopped)

namespace Sound

variable {s s' : Source}

theorem init (interval : Nat) : Sound { interval } where
  absent _ := .inl rfl
  new _ := rfl
  ended := nofun
  seen := nofun

variable (h : s.Sound)
include h

theorem present (hnew : s.state ≠ .new) (hstopped : s.state ≠ .stopped) :
    s.loop ≠ .absent ∧ s.loop ≠ .ended :=
  ⟨fun ha => (h.absent ha).elim hnew hstopped, fun he => hstopped (h.ended he)⟩

theorem setState {state : SourceState} (hnew : state ≠ .new)
    (hloop : state = .stopped ∨ s.loop ≠ .absent ∧ s.loop ≠ .ended) : (s.setState state).Sound where
  absent ha := .inr (hloop.resolve_right fun hp => hp.1 ha)
  new hs := absurd hs hnew
  ended he := hloop.resolve_right fun hp => hp.2 he
  seen n hn := by
    have hle := (h.seen n hn).1
    have hchanges : (s.setState state).changes = s.changes + 1 := rfl
    exact ⟨by omega, fun heq => by omega⟩

theorem apply {c : SourceCall} (hs : c.apply s = .ok s') : s'.Sound := by
  cases c with
  | start runtime =>
      obtain ⟨-, -, rfl⟩ := start_ok hs
      refine ⟨nofun, nofun, nofun, fun n hn => ?_⟩
      cases hn
      exact ⟨Nat.le_refl _, fun _ => nofun⟩
  | pause =>
      obtain ⟨hstate, rfl⟩ := transition_ok hs
      exact h.setState nofun (.inr (h.present (by simp [hstate]) (by simp [hstate])))
  | resume =>
      obtain ⟨hstate, rfl⟩ := transition_ok hs
      exact h.setState nofun (.inr (h.present (by simp [hstate]) (by simp [hstate])))

theorem halt : s.halt.Sound := h.setState nofun (.inl rfl)

theorem pass (span : Nat) : (s.pass span).Sound := ⟨h.absent, h.new, h.ended, h.seen⟩

theorem of_seen {loop : SourceLoop} (stats : SourceStats) {n : Nat} (hs : s.loop.seen? = some n)
    (hloop : loop.seen? = some n) : Sound { s with loop, stats } where
  absent ha := by
    rw [show loop = .absent from ha] at hloop
    cases hloop
  new hnew := by
    rw [h.new hnew] at hs
    cases hs
  ended he := by
    rw [show loop = .ended from he] at hloop
    cases hloop
  seen k hk := h.seen k (hs.trans (hloop.symm.trans hk))

theorem look {loop : SourceLoop} (stats : SourceStats) (hs : s.loop ≠ .absent)
    (hstate : s.state ≠ .stopped) (hloop : loop.seen? = some s.changes) :
    Sound { s with loop, stats } where
  absent ha := by
    rw [show loop = .absent from ha] at hloop
    cases hloop
  new hnew := absurd (h.new hnew) hs
  ended he := by
    rw [show loop = .ended from he] at hloop
    cases hloop
  seen k hk := by
    obtain rfl := Option.some.inj (hloop.symm.trans hk)
    exact ⟨Nat.le_refl _, fun _ => hstate⟩

theorem leave (hs : s.loop ≠ .absent) (hstate : s.state = .stopped) :
    Sound { s with loop := .ended } where
  absent := nofun
  new hnew := absurd (h.new hnew) hs
  ended _ := hstate
  seen := nofun

end Sound

section

variable {s : Source} {seen due : Nat} (h : s.Sound)
include h

theorem Sound.begin (hloop : s.loop = .ready seen) : s.begin.Sound := by
  rw [begin_eq hloop]
  exact h.of_seen s.stats (by rw [hloop]; rfl) rfl

theorem Sound.notice (hloop : s.loop = .waiting seen due) (hseen : seen ≠ s.changes) :
    s.notice.Sound := by
  have hs : s.loop ≠ .absent := by simp [hloop]
  rw [notice_eq hloop hseen]
  by_cases hstate : s.state = .stopped
  · rw [if_pos hstate]
    exact h.leave hs hstate
  · rw [if_neg hstate]
    exact h.look s.stats hs hstate rfl

theorem Sound.expire_cases (hloop : s.loop = .waiting seen due) (hdue : due ≤ s.now) :
    s.state = .running ∧
        s.expire = { s with loop := .polling s.changes, stats := s.stats.addTick } ∨
      s.state = .paused ∧
        s.expire = { s with loop := .ready s.changes, stats := s.stats.addSkipped } ∨
      s.state = .stopped ∧ s.expire = { s with loop := .ended } := by
  rw [Source.expire, hloop]
  dsimp only
  rw [if_neg (Nat.not_lt.2 hdue)]
  cases hs : s.state with
  | new =>
      rw [h.new hs] at hloop
      cases hloop
  | running => exact .inl ⟨rfl, rfl⟩
  | paused => exact .inr (.inl ⟨rfl, rfl⟩)
  | stopped => exact .inr (.inr ⟨rfl, rfl⟩)

theorem Sound.expire (hloop : s.loop = .waiting seen due) (hdue : due ≤ s.now) : s.expire.Sound := by
  have hs : s.loop ≠ .absent := by simp [hloop]
  rcases h.expire_cases hloop hdue with ⟨hstate, he⟩ | ⟨hstate, he⟩ | ⟨hstate, he⟩
  · rw [he]
    exact h.look _ hs (by simp [hstate]) rfl
  · rw [he]
    exact h.look _ hs (by simp [hstate]) rfl
  · rw [he]
    exact h.leave hs hstate

theorem Sound.finish (hloop : s.loop = .polling seen) (result : Except Failure PollReport) :
    (s.finish result).Sound := by
  rw [finish_eq hloop]
  exact h.of_seen _ (by rw [hloop]; rfl) rfl

end

end Source

namespace SourceEvent

def opensDelay : SourceEvent → Bool
  | call c outcome => outcome.isOk && decide (c = .start true)
  | pollEnds _ => true
  | _ => false

def startsPoll : SourceEvent → Bool
  | pollStarts => true
  | _ => false

def endsPoll : SourceEvent → Bool
  | pollEnds _ => true
  | _ => false

end SourceEvent

def SourceLoop.isPolling : SourceLoop → Bool
  | polling _ => true
  | _ => false

/-- What a source has to do with the events up to now. -/
structure Recorded (interval : Nat) (es : List (Nat × SourceEvent)) (s : Source) : Prop where
  paced : s.interval = interval
  past : ∀ x ∈ es, x.1 ≤ s.now
  polls : es.countP (·.2.startsPoll) = es.countP (·.2.endsPoll) + s.loop.isPolling.toNat
  started : s.loop ≠ .absent → ∃ t, (t, .call (.start true) (.ok ())) ∈ es
  /-- The delay began after everything that it has to follow. -/
  spaced : ∀ seen due, s.loop = .waiting seen due → ∀ x ∈ es, x.2.opensDelay = true →
    x.1 + interval ≤ due

theorem Recorded.step {interval : Nat} {es : List (Nat × SourceEvent)} {s s' : Source}
    (h : Recorded interval es s) (e : SourceEvent) (hinterval : s'.interval = s.interval)
    (hnow : s.now ≤ s'.now)
    (hpolls : e.startsPoll.toNat + s.loop.isPolling.toNat = e.endsPoll.toNat + s'.loop.isPolling.toNat)
    (hstarted : s'.loop ≠ .absent → s.loop ≠ .absent ∨ e = .call (.start true) (.ok ()))
    (hspaced : ∀ seen due, s'.loop = .waiting seen due →
      s.loop = .waiting seen due ∧ e.opensDelay = false ∨ s.now + s.interval ≤ due) :
    Recorded interval (es ++ [(s.now, e)]) s' where
  paced := hinterval.trans h.paced
  past := by
    intro x hx
    rcases List.mem_append.1 hx with hx | hx
    · exact Nat.le_trans (h.past x hx) hnow
    · obtain rfl := List.mem_singleton.1 hx
      exact hnow
  polls := by
    have hold := h.polls
    rw [List.countP_append, List.countP_append, List.countP_singleton, List.countP_singleton]
    cases hs : e.startsPoll <;> cases he : e.endsPoll <;> simp [hs, he] at hpolls ⊢ <;> omega
  started := by
    intro hloop
    rcases hstarted hloop with hloop | rfl
    · obtain ⟨t, ht⟩ := h.started hloop
      exact ⟨t, List.mem_append_left _ ht⟩
    · exact ⟨s.now, List.mem_append_right _ (List.mem_singleton_self _)⟩
  spaced := by
    intro seen due hloop x hx hopens
    rcases hspaced seen due hloop with ⟨hsame, hcloses⟩ | hdue
    · rcases List.mem_append.1 hx with hx | hx
      · exact h.spaced seen due hsame x hx hopens
      · obtain rfl := List.mem_singleton.1 hx
        exact absurd (hopens.symm.trans hcloses) (by simp)
    · have hpast : x.1 ≤ s.now := by
        rcases List.mem_append.1 hx with hx | hx
        · exact h.past x hx
        · obtain rfl := List.mem_singleton.1 hx
          exact Nat.le_refl _
      have hpaced := h.paced
      omega

theorem Recorded.idle {interval : Nat} {es : List (Nat × SourceEvent)} {s s' : Source}
    (h : Recorded interval es s) {e : SourceEvent}
    (he : e.startsPoll = false ∧ e.endsPoll = false ∧ e.opensDelay = false)
    (hinterval : s'.interval = s.interval) (hnow : s.now ≤ s'.now) (hloop : s'.loop = s.loop) :
    Recorded interval (es ++ [(s.now, e)]) s' := by
  refine h.step e hinterval hnow ?_ (fun hl => .inl (hloop ▸ hl)) fun seen due hl =>
    .inl ⟨hloop ▸ hl, he.2.2⟩
  rw [he.1, he.2.1, hloop]

/-- Once the source is stopped and stop has returned, or need not wait, there is no loop. -/
structure Attended (s : Session) : Prop where
  stopping : ∀ waits, s.caller = .stopping waits →
    s.source.state = .stopped ∧ (waits = false → s.source.isQuiet = true)
  free : s.caller = .free → s.source.state = .stopped → s.source.isQuiet = true

structure Lived (interval : Nat) (es : List (Nat × SourceEvent)) (s : Session) : Prop where
  sound : s.source.Sound
  recorded : Recorded interval es s.source
  attended : Attended s
  halted : ∀ x ∈ es, x.2 = .stop ∨ x.2 = .stopReturns → s.source.state = .stopped

namespace Session

variable {s s' : Session} {e : SourceEvent}

theorem Step.state (h : Step s e s') :
    (∃ c, e = .call c (.ok ()) ∧ c.Moves s.source.state s'.source.state) ∨
      e = .stop ∧ s'.source.state = .stopped ∨
      (∀ c, e ≠ .call c (.ok ())) ∧ e ≠ .stop ∧ s'.source.state = s.source.state := by
  cases h with
  | accept h => exact .inl ⟨_, rfl, SourceCall.moves_of_apply h⟩
  | stop => exact .inr (.inl ⟨rfl, rfl⟩)
  | refuse | stopReturns | pass => exact .inr (.inr ⟨nofun, nofun, rfl⟩)
  | begin | notice | skip | poll | finish => exact .inr (.inr ⟨nofun, nofun, by simp⟩)

theorem Step.stopped (h : Step s e s') (hs : s.source.state = .stopped) :
    s'.source.state = .stopped := by
  rcases h.state with ⟨c, -, hm⟩ | ⟨-, hs'⟩ | ⟨-, -, hs'⟩
  · rw [hs] at hm
    cases c with
    | start => exact absurd hm.2.1 nofun
    | pause | resume => exact absurd hm.1 nofun
  · exact hs'
  · exact hs'.trans hs

theorem Step.sound (h : Step s e s') (hs : s.source.Sound) : s'.source.Sound := by
  cases h with
  | accept hc => exact hs.apply hc
  | refuse | stopReturns => exact hs
  | stop => exact hs.halt
  | pass => exact hs.pass _
  | begin hl => exact hs.begin hl
  | notice hl hseen => exact hs.notice hl hseen
  | skip hl hdue | poll hl hdue => exact hs.expire hl hdue
  | finish hl result => exact hs.finish hl result

end Session

theorem Attended.move {s s' : Source} {caller : SourceCaller} (h : Attended ⟨s, caller⟩)
    (hstate : s'.state = s.state) (hbusy : s.isQuiet = false) : Attended ⟨s', caller⟩ where
  stopping waits hw := by
    obtain ⟨hs, hquiet⟩ := h.stopping waits hw
    exact ⟨hstate.trans hs, fun hf => absurd (hquiet hf) (by simp [hbusy])⟩
  free hf hs := absurd (h.free hf (hstate.symm.trans hs)) (by simp [hbusy])

theorem Attended.step {s s' : Session} {e : SourceEvent} (h : Attended s) (hstep : Session.Step s e s') :
    Attended s' := by
  cases hstep with
  | @accept s s' c hc =>
      have hm := SourceCall.moves_of_apply hc
      refine ⟨nofun, fun _ hs => ?_⟩
      have hs : s'.state = .stopped := hs
      rw [hs] at hm
      cases c with
      | start => exact absurd hm.2.2 nofun
      | pause | resume => exact absurd hm.2 nofun
  | refuse => exact h
  | stop s =>
      refine ⟨?_, nofun⟩
      rintro waits ⟨⟩
      refine ⟨rfl, fun hwaits => h.free rfl ?_⟩
      simpa using hwaits
  | @stopReturns s waits hwaits =>
      obtain ⟨-, hquiet⟩ := h.stopping waits rfl
      refine ⟨nofun, fun _ _ => ?_⟩
      cases waits with
      | true => exact hwaits rfl
      | false => exact hquiet rfl
  | pass s caller span => exact ⟨fun waits hw => h.stopping waits hw, fun hf => h.free hf⟩
  | begin hl | notice hl | skip hl | poll hl | finish hl =>
      exact h.move (by simp) (by simp [Source.isQuiet, hl])

namespace Lived

variable {interval : Nat} {es : List (Nat × SourceEvent)} {s s' : Session} {e : SourceEvent}

theorem init (interval : Nat) : Lived interval [] ⟨{ interval }, .free⟩ where
  sound := .init interval
  recorded := ⟨rfl, nofun, rfl, fun h => absurd rfl h, nofun⟩
  attended := ⟨nofun, nofun⟩
  halted := nofun

variable (h : Lived interval es s)
include h

theorem recorded_step (hstep : Session.Step s e s') :
    Recorded interval (es ++ [(s.source.now, e)]) s'.source := by
  have hr := h.recorded
  cases hstep with
  | @accept s s' c hc =>
      cases c with
      | start runtime =>
          obtain ⟨rfl, hs, rfl⟩ := Source.start_ok hc
          have ha : s.loop = .absent := h.sound.new hs
          refine hr.step _ rfl (Nat.le_refl _) ?_ (fun _ => .inr rfl) nofun
          rw [ha]
          rfl
      | pause | resume =>
          obtain ⟨-, rfl⟩ := Source.transition_ok hc
          exact hr.idle ⟨rfl, rfl, rfl⟩ rfl (Nat.le_refl _) rfl
  | refuse | stop | stopReturns => exact hr.idle ⟨rfl, rfl, rfl⟩ rfl (Nat.le_refl _) rfl
  | pass => exact hr.idle ⟨rfl, rfl, rfl⟩ rfl (Nat.le_add_right ..) rfl
  | begin hl =>
      rw [Source.begin_eq hl]
      refine hr.step _ rfl (Nat.le_refl _) ?_ (fun _ => .inl (by simp [hl])) ?_
      · rw [hl]
        rfl
      · rintro seen due ⟨⟩
        exact .inr (Nat.le_refl _)
  | notice hl hseen =>
      rw [Source.notice_eq hl hseen]
      refine hr.step _ rfl (Nat.le_refl _) ?_ (fun _ => .inl (by simp [hl])) ?_
      · rw [hl]
        dsimp only
        split <;> rfl
      · intro seen due hw
        dsimp only at hw
        split at hw <;> cases hw
  | skip hl hdue hpoll =>
      rcases h.sound.expire_cases hl hdue with ⟨-, he⟩ | ⟨-, he⟩ | ⟨-, he⟩
      · rw [he] at hpoll
        exact absurd rfl (hpoll _)
      all_goals
        rw [he]
        refine hr.step _ rfl (Nat.le_refl _) ?_ (fun _ => .inl (by simp [hl])) nofun
        rw [hl]
        rfl
  | poll hl hdue hpoll =>
      rcases h.sound.expire_cases hl hdue with ⟨-, he⟩ | ⟨-, he⟩ | ⟨-, he⟩
      · rw [he]
        refine hr.step _ rfl (Nat.le_refl _) ?_ (fun _ => .inl (by simp [hl])) nofun
        rw [hl]
        rfl
      all_goals
        rw [he] at hpoll
        cases hpoll
  | finish hl result =>
      rw [Source.finish_eq hl]
      refine hr.step _ rfl (Nat.le_refl _) ?_ (fun _ => .inl (by simp [hl])) nofun
      rw [hl]
      rfl

theorem step (hstep : Session.Step s e s') : Lived interval (es ++ [(s.source.now, e)]) s' where
  sound := hstep.sound h.sound
  recorded := h.recorded_step hstep
  attended := h.attended.step hstep
  halted := by
    intro x hx hhalts
    rcases List.mem_append.1 hx with hx | hx
    · exact hstep.stopped (h.halted x hx hhalts)
    · obtain rfl := List.mem_singleton.1 hx
      cases hstep with
      | stop => rfl
      | @stopReturns s waits => exact (h.attended.stopping waits rfl).1
      | accept | refuse | pass | begin | notice | skip | poll | finish =>
          rcases hhalts with hhalts | hhalts <;> cases hhalts

theorem steps {es' : List (Nat × SourceEvent)} (hsteps : Session.Steps s es' s') :
    Lived interval (es ++ es') s' := by
  induction hsteps with
  | refl => rwa [List.append_nil]
  | step _ hstep ih =>
      rw [← List.append_assoc]
      exact ih.step hstep

end Lived

/-- What a step can be after the given events. -/
structure SafeStep (interval : Nat) (es : List (Nat × SourceEvent)) (s : Session) (e : SourceEvent)
    (s' : Session) : Prop where
  moves : (∃ c, e = .call c (.ok ()) ∧ c.Moves s.source.state s'.source.state) ∨
    e = .stop ∧ s'.source.state = .stopped ∨
    (∀ c, e ≠ .call c (.ok ())) ∧ e ≠ .stop ∧ s'.source.state = s.source.state
  refused : ∀ c f, e = .call c (.error f) →
    f.kind = .invalidState ∧ (∀ target, ¬ c.Moves s.source.state target) ∧ s' = s
  final : s.source.state = .stopped → s'.source.state = .stopped
  /-- A poll starts only while the source is running, so never once stop was called. -/
  running : e = .pollStarts → s.source.state = .running ∧ ∀ x ∈ es, x.2 ≠ .stop
  alone : e = .pollStarts → es.countP (·.2.startsPoll) = es.countP (·.2.endsPoll)
  /-- A poll starts an interval after the source was started, and after the end of each poll. -/
  spaced : e = .pollStarts →
    (∃ t, (t, .call (.start true) (.ok ())) ∈ es ∧ t + interval ≤ s.source.now) ∧
    ∀ t r, (t, .pollEnds r) ∈ es → t + interval ≤ s.source.now
  /-- Stop returns only when all polls have ended. -/
  waits : e = .stopReturns → es.countP (·.2.startsPoll) = es.countP (·.2.endsPoll)

namespace SourceEvent

def isOfLoop : SourceEvent → Bool
  | move | pollStarts | pollEnds _ => true
  | _ => false

end SourceEvent

/-- What can be done at any time. -/
structure Responsive (s : Session) : Prop where
  calls : s.caller = .free → (∀ c, ∃ outcome s', Session.Step s (.call c outcome) s') ∧
    ∃ s', Session.Step s .stop s'
  /-- A call of stop can return after a few moves of the loop, for which no time need pass. -/
  stops : ∀ waits, s.caller = .stopping waits → ∀ es s', Session.Steps s es s' →
    (∀ x ∈ es, x.2.isOfLoop = true) → es.length ≤ 3 ∧
      ((∃ t, Session.Step s' .stopReturns t) ∨ ∃ e t, e.isOfLoop = true ∧ Session.Step s' e t)

def SourceLoop.movesLeft : SourceLoop → Nat
  | absent | ended => 0
  | waiting _ _ => 1
  | ready _ => 2
  | polling _ => 3

namespace Lived

variable {interval : Nat} {es : List (Nat × SourceEvent)} {s s' : Session} {e : SourceEvent}

theorem movesLeft_step (h : Lived interval es s) (hs : s.source.state = .stopped)
    (hstep : Session.Step s e s') (he : e.isOfLoop = true) :
    s'.source.loop.movesLeft < s.source.loop.movesLeft ∧ s'.caller = s.caller := by
  cases hstep with
  | accept | refuse | stop | stopReturns | pass => cases he
  | begin hl =>
      refine ⟨?_, rfl⟩
      rw [Source.begin_eq hl, hl]
      simp [SourceLoop.movesLeft]
  | notice hl hseen =>
      refine ⟨?_, rfl⟩
      rw [Source.notice_eq hl hseen, hl, if_pos hs]
      simp [SourceLoop.movesLeft]
  | skip hl hdue | poll hl hdue =>
      refine ⟨?_, rfl⟩
      rcases h.sound.expire_cases hl hdue with ⟨hr, -⟩ | ⟨hp, -⟩ | ⟨-, he⟩
      · exact absurd (hr.symm.trans hs) nofun
      · exact absurd (hp.symm.trans hs) nofun
      · rw [he, hl]
        simp [SourceLoop.movesLeft]
  | finish hl result =>
      refine ⟨?_, rfl⟩
      rw [Source.finish_eq hl, hl]
      simp [SourceLoop.movesLeft]

theorem can_go_on {waits : Bool} (h : Lived interval es s) (hc : s.caller = .stopping waits) :
    (∃ t, Session.Step s .stopReturns t) ∨ ∃ e t, e.isOfLoop = true ∧ Session.Step s e t := by
  obtain ⟨source, caller⟩ := s
  obtain rfl : caller = .stopping waits := hc
  have hstopped := (h.attended.stopping waits rfl).1
  cases hl : source.loop with
  | absent | ended => exact .inl ⟨_, .stopReturns fun _ => by simp [Source.isQuiet, hl]⟩
  | ready seen => exact .inr ⟨_, _, rfl, .begin hl⟩
  | waiting seen due =>
      -- Having looked at the latest change, the loop would have ended.
      have hseen := (h.sound.seen seen (by simp [hl, SourceLoop.seen?])).2
      exact .inr ⟨_, _, rfl, .notice hl fun heq => hseen heq hstopped⟩
  | polling seen => exact .inr ⟨_, _, rfl, .finish hl (.error .noRuntime)⟩

theorem responsive (h : Lived interval es s) : Responsive s where
  calls hc := by
    obtain ⟨source, caller⟩ := s
    obtain rfl : caller = .free := hc
    refine ⟨fun c => ?_, _, .stop source⟩
    cases hr : c.apply source with
    | ok s' => exact ⟨_, _, .accept hr⟩
    | error e => exact ⟨_, _, .refuse hr⟩
  stops waits hc es' s' hsteps hloop := by
    have hstopped := (h.attended.stopping waits hc).1
    have hleft : es'.length + s'.source.loop.movesLeft ≤ s.source.loop.movesLeft ∧
        s'.caller = .stopping waits := by
      induction hsteps with
      | refl => exact ⟨Nat.le_of_eq (Nat.zero_add _), hc⟩
      | @step es'' e t u hsteps hstep ih =>
          obtain ⟨hle, hcaller⟩ := ih fun x hx => hloop x (List.mem_append_left _ hx)
          have hlived := h.steps hsteps
          have hs := (hlived.attended.stopping waits hcaller).1
          have hone := hlived.movesLeft_step hs hstep
            (hloop _ (List.mem_append_right _ (List.mem_singleton_self _)))
          refine ⟨?_, hone.2.trans hcaller⟩
          rw [List.length_append, List.length_singleton]
          omega
    have hmost : s.source.loop.movesLeft ≤ 3 := by cases s.source.loop <;> simp [SourceLoop.movesLeft]
    exact ⟨by omega, (h.steps hsteps).can_go_on hleft.2⟩

theorem safe (h : Lived interval es s) (hstep : Session.Step s e s') : SafeStep interval es s e s' where
  moves := hstep.state
  refused := by
    rintro c f rfl
    cases hstep with
    | refuse hc =>
        obtain ⟨hk, hm⟩ := SourceCall.apply_error hc
        exact ⟨hk, hm, rfl⟩
  final := hstep.stopped
  running := by
    rintro rfl
    cases hstep with
    | poll hl hdue hpoll =>
        rcases h.sound.expire_cases hl hdue with ⟨hr, -⟩ | ⟨-, he⟩ | ⟨-, he⟩
        · refine ⟨hr, fun x hx hstop => ?_⟩
          exact absurd (hr.symm.trans (h.halted x hx (.inl hstop))) nofun
        all_goals
          rw [he] at hpoll
          cases hpoll
  alone := by
    rintro rfl
    cases hstep with
    | poll hl =>
        have hpolls := h.recorded.polls
        rw [hl] at hpolls
        exact hpolls
  spaced := by
    rintro rfl
    cases hstep with
    | poll hl hdue =>
        have hspaced := h.recorded.spaced _ _ hl
        refine ⟨?_, fun t r hx => Nat.le_trans (hspaced _ hx rfl) hdue⟩
        obtain ⟨t, ht⟩ := h.recorded.started (by simp [hl])
        exact ⟨t, ht, Nat.le_trans (hspaced _ ht rfl) hdue⟩
  waits := by
    rintro rfl
    have hpolls := h.recorded.polls
    cases hstep with
    | @stopReturns s waits hwaits =>
        have hquiet : s.isQuiet = true := by
          cases waits with
          | true => exact hwaits rfl
          | false => exact (h.attended.stopping false rfl).2 rfl
        cases hl : s.loop with
        | absent | ended =>
            rw [hl] at hpolls
            exact hpolls
        | ready | waiting | polling => simp [Source.isQuiet, hl] at hquiet

end Lived

namespace Session

def Goes (s t : Session) : Prop := t = s ∨ ∃ e, e.endsPoll = false ∧ Step s e t

section

variable (r : Source) (caller : SourceCaller)

theorem goes_begin : Goes ⟨r, caller⟩ ⟨r.begin, caller⟩ := by
  cases hl : r.loop with
  | ready seen => exact .inr ⟨_, rfl, .begin hl⟩
  | absent | waiting | polling | ended => exact .inl (by rw [Source.begin, hl])

theorem goes_notice : Goes ⟨r, caller⟩ ⟨r.notice, caller⟩ := by
  cases hl : r.loop with
  | waiting seen due =>
      by_cases hseen : seen = r.changes
      · refine .inl ?_
        rw [Source.notice, hl]
        dsimp only
        rw [if_pos hseen]
      · exact .inr ⟨_, rfl, .notice hl hseen⟩
  | absent | ready | polling | ended => exact .inl (by rw [Source.notice, hl])

theorem goes_expire : Goes ⟨r, caller⟩ ⟨r.expire, caller⟩ := by
  cases hl : r.loop with
  | waiting seen due =>
      by_cases hdue : due ≤ r.now
      · cases hpoll : r.expire.loop with
        | polling => exact .inr ⟨_, rfl, .poll hl hdue hpoll⟩
        | absent | ready | waiting | ended => exact .inr ⟨_, rfl, .skip hl hdue (by simp [hpoll])⟩
      · refine .inl ?_
        rw [Source.expire, hl]
        dsimp only
        rw [if_pos (Nat.lt_of_not_le hdue)]
  | absent | ready | polling | ended => exact .inl (by rw [Source.expire, hl])

theorem goes_wake : Goes ⟨r, caller⟩ ⟨r.wake, caller⟩ := by
  cases hl : r.loop with
  | waiting seen due =>
      rw [Source.wake, hl]
      exact .inr ⟨_, rfl, .pass r caller _⟩
  | absent | ready | polling | ended => exact .inl (by rw [Source.wake, hl])

end

def Reaches (s t : Session) : Prop := ∃ es, Steps s es t

namespace Reaches

variable {s t u : Session} {e : SourceEvent}

theorem refl (s : Session) : Reaches s s := ⟨[], .refl⟩

theorem step (h : Reaches s t) (hstep : Step t e u) : Reaches s u := by
  obtain ⟨es, hes⟩ := h
  exact ⟨_, .step hes hstep⟩

theorem goes (h : Reaches s t) (hgo : Goes t u) : Reaches s u := by
  rcases hgo with rfl | ⟨e, -, hstep⟩
  · exact h
  · exact h.step hstep

variable {r : Source} {caller : SourceCaller}

theorem begin (h : Reaches s ⟨r, caller⟩) : Reaches s ⟨r.begin, caller⟩ := h.goes (goes_begin r caller)

theorem expire (h : Reaches s ⟨r, caller⟩) : Reaches s ⟨r.expire, caller⟩ :=
  h.goes (goes_expire r caller)

theorem settle (h : Reaches s ⟨r, caller⟩) : Reaches s ⟨r.settle, caller⟩ :=
  (h.begin.goes (goes_notice r.begin caller)).begin

theorem wake (h : Reaches s ⟨r, caller⟩) : Reaches s ⟨r.wake, caller⟩ := h.goes (goes_wake r caller)

section

variable {σ : Type} (poll : Act σ PollReport) {w : Source × σ}

theorem tick (h : Reaches s ⟨w.1, caller⟩) : Reaches s ⟨(Source.tick poll w).1, caller⟩ := by
  have hexpired := h.wake.expire
  rw [Source.tick]
  cases hl : w.1.wake.expire.loop with
  | polling seen => exact (hexpired.step (.finish hl (Act.outcome poll w.2).1)).begin
  | absent | ready | waiting | ended => exact hexpired.begin

/-- Letting time pass is a session of its own, with a poll wherever one is due. -/
theorem advance (h : Reaches s ⟨w.1, caller⟩) (span : Nat) :
    Reaches s ⟨(Source.advance poll span w).1, caller⟩ := by
  have hticks (k : Nat) {w : Source × σ} (h : Reaches s ⟨w.1, caller⟩) :
      Reaches s ⟨(Nat.repeat (Source.tick poll) k w).1, caller⟩ := by
    induction k with
    | zero => exact h
    | succ k ih => exact ih.tick poll
  exact (hticks _ h.settle).step (.pass _ caller _)

end

end Reaches

end Session

theorem Source.stop_isQuiet {s : Source} (h : s.Sound) (hidle : s.loop.isPolling = false) :
    s.stop.isQuiet = true := by
  -- The loop has not looked at the change that stop makes.
  have hlate : ∀ seen, s.loop.seen? = some seen → seen ≠ s.changes + 1 := fun seen hseen => by
    have hle := (h.seen seen hseen).1
    omega
  cases hl : s.loop with
  | absent | ended => simp [stop, settle, begin, notice, halt, setState, isQuiet, hl]
  | ready seen | waiting seen =>
      have hne := hlate seen (by rw [hl]; rfl)
      simp [stop, settle, begin, notice, halt, setState, isQuiet, hl, hne]
  | polling seen => simp [hl, SourceLoop.isPolling] at hidle

theorem Lived.stop {interval : Nat} {es : List (Nat × SourceEvent)} {s : Source}
    (h : Lived interval es ⟨s, .free⟩) (hidle : s.loop.isPolling = false) :
    Session.Reaches ⟨s, .free⟩ ⟨s.stop, .free⟩ :=
  ((Session.Reaches.refl _).step (.stop s)).settle.step
    (.stopReturns fun _ => Source.stop_isQuiet h.sound hidle)

/-- The life of a source, whatever the calls, the times and the results of its polls are. -/
theorem Session.Steps.lifecycle {interval : Nat} {es : List (Nat × SourceEvent)} {s : Session}
    (h : Session.Steps ⟨{ interval }, .free⟩ es s) :
    (∀ e s', Session.Step s e s' → SafeStep interval es s e s') ∧ Responsive s := by
  have hlived := (Lived.init interval).steps h
  exact ⟨fun e s' hstep => hlived.safe hstep, hlived.responsive⟩

end ChangeFeed

namespace ChangeFeed.Sample

def dueSource : Source where
  interval := 10
  state := .running
  changes := 1
  now := 10
  loop := .waiting 1 10

theorem lifecycle_dueSource :
    let es := [(0, .call (.start true) (.ok ())), (0, .move), (0, .pass 10)]
    Session.Steps ⟨{ interval := 10 }, .free⟩ es ⟨dueSource, .free⟩ ∧
      (∀ e s', Session.Step ⟨dueSource, .free⟩ e s' → SafeStep 10 es ⟨dueSource, .free⟩ e s') ∧
      Responsive ⟨dueSource, .free⟩ := by
  have hstarted : Session.Step ⟨{ interval := 10 }, .free⟩ (.call (.start true) (.ok ())) _ := .accept rfl
  have hwaiting := (Session.Steps.refl.step hstarted).step (.begin rfl)
  have hdue := hwaiting.step (.pass _ _ 10)
  exact ⟨hdue, Session.Steps.lifecycle hdue⟩

end ChangeFeed.Sample

