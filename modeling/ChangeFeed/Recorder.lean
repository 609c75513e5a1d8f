import ChangeFeed.Poller

namespace ChangeFeed

structure Recorder where
  name : String
  /-- The calls that are refused, counted from one. -/
  refused : List Nat := []
  refusal : Failure

structure Recordings where
  calls : SortedMap Nat Nat := ∅
  delivered : List (String × List ChangeEvent) := []

namespace Recordings

def callsOf (r : Recordings) (position : Nat) : Nat := (r.calls.get? position).getD 0

def add (r : Recordings) (position : Nat) (name : String) (events : List ChangeEvent) :
    Recordings where
  calls := r.calls.insert position (r.callsOf position + 1)
  delivered := r.delivered ++ [(name, events)]

end Recordings

namespace Recorder

/-- The recorder at a position, as a consumer. A batch is recorded before it is refused. -/
def consumer (r : Recorder) (position : Nat) : Consumer Recordings where
  name := r.name
  receive events := do
    modify (·.add position r.name events)
    if (← get).callsOf position ∈ r.refused then throw r.refusal

end Recorder

end ChangeFeed
