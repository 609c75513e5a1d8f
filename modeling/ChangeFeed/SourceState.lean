namespace ChangeFeed

inductive SourceState where
  | new
  | running
  | paused
  | stopped
  deriving DecidableEq

namespace SourceState

def all : List SourceState := [new, running, paused, stopped]

def name : SourceState → String
  | new => "new"
  | running => "running"
  | paused => "paused"
  | stopped => "stopped"

end SourceState

end ChangeFeed
