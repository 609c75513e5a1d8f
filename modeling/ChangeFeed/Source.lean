import ChangeFeed.Poller
import ChangeFeed.SourceState

namespace ChangeFeed

/-- Counted without a bound. Counters of 64 bits would start again at zero after so many. -/
structure SourceStats where
  ticks : Nat := 0
  skippedWhilePaused : Nat := 0
  failedPolls : Nat := 0
  rows : Nat := 0
  events : Nat := 0
  deriving DecidableEq

namespace SourceStats

def addTick (s : SourceStats) : SourceStats := { s with ticks := s.ticks + 1 }

def addResult (s : SourceStats) : Except Failure PollReport → SourceStats
  | .ok r => { s with rows := s.rows + r.rows, events := s.events + r.events }
  | .error _ => { s with failedPolls := s.failedPolls + 1 }

def addSkipped (s : SourceStats) : SourceStats :=
  { s with skippedWhilePaused := s.skippedWhilePaused + 1 }

end SourceStats

/-- Where the loop of a source is, and up to which change of the state it has looked. -/
inductive SourceLoop where
  | absent
  | ready (seen : Nat)
  | waiting (seen due : Nat)
  | polling (seen : Nat)
  | ended
  deriving DecidableEq

structure Source where
  interval : Nat
  state : SourceState := .new
  /-- How often the state was set. -/
  changes : Nat := 0
  now : Nat := 0
  loop : SourceLoop := .absent
  stats : SourceStats := {}
  deriving DecidableEq

namespace Source

variable {σ : Type}

def setState (s : Source) (state : SourceState) : Source :=
  { s with state, changes := s.changes + 1 }

def transition (s : Source) (source target : SourceState) : Except Failure Source :=
  if s.state = source then .ok (s.setState target) else .error (.transition s.state target)

def spawn (s : Source) : Source := { s with loop := .ready s.changes }

def start (s : Source) (runtime : Bool) : Except Failure Source :=
  if runtime then spawn <$> s.transition .new .running else .error .noRuntime

def pause (s : Source) : Except Failure Source := s.transition .running .paused

def resume (s : Source) : Except Failure Source := s.transition .paused .running

def halt (s : Source) : Source := s.setState .stopped

def isQuiet (s : Source) : Bool := s.loop = .absent || s.loop = .ended

def pass (s : Source) (span : Nat) : Source := { s with now := s.now + span }

def begin (s : Source) : Source :=
  match s.loop with
  | .ready seen => { s with loop := .waiting seen (s.now + s.interval) }
  | _ => s

/-- Ends the delay early if the state was set since the loop looked. -/
def notice (s : Source) : Source :=
  match s.loop with
  | .waiting seen _ =>
    if seen = s.changes then s
    else { s with loop := if s.state = .stopped then .ended else .ready s.changes }
  | _ => s

/-- What comes after the delay: a poll if the source is running, nothing but a count if it is paused. -/
def expire (s : Source) : Source :=
  match s.loop with
  | .waiting _ due =>
    if s.now < due then s
    else match s.state with
      | .stopped => { s with loop := .ended }
      | .paused => { s with loop := .ready s.changes, stats := s.stats.addSkipped }
      | .new | .running => { s with loop := .polling s.changes, stats := s.stats.addTick }
  | _ => s

def finish (s : Source) (result : Except Failure PollReport) : Source :=
  match s.loop with
  | .polling seen => { s with loop := .ready seen, stats := s.stats.addResult result }
  | _ => s

def settle (s : Source) : Source := s.begin.notice.begin

/-- Stops for good, when no poll is on its way. A source that was stopped can be stopped again. -/
def stop (s : Source) : Source := s.halt.settle

def wake (s : Source) : Source :=
  match s.loop with
  | .waiting _ due => s.pass (due - s.now)
  | _ => s

def tick (poll : Act σ PollReport) (w : Source × σ) : Source × σ :=
  let s := w.1.wake.expire
  match s.loop with
  | .polling _ =>
    let (result, t) := Act.outcome poll w.2
    ((s.finish result).begin, t)
  | _ => (s.begin, w.2)

def ticksUntil (s : Source) (time : Nat) : Nat :=
  match s.loop with
  | .waiting _ due => if due ≤ time then (time - due) / s.interval + 1 else 0
  | _ => 0

/-- Lets time pass, with polls that take none. -/
def advance (poll : Act σ PollReport) (span : Nat) (w : Source × σ) : Source × σ :=
  let s := w.1.settle
  let time := s.now + span
  let (s, t) := Nat.repeat (tick poll) (s.ticksUntil time) (s, w.2)
  (s.pass (time - s.now), t)

end Source

end ChangeFeed
