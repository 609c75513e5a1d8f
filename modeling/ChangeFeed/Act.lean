import ChangeFeed.Failure

namespace ChangeFeed

/-- An action on a state that may fail. The state that was reached is kept when it fails, as the outside
world would keep it. -/
abbrev Act (σ α : Type) := EStateM Failure σ α

namespace Act

variable {σ τ α : Type}

def attempt (a : Act σ α) : Act σ (Except Failure α) := fun s =>
  match a s with
  | .ok x s => .ok (.ok x) s
  | .error e s => .ok (.error e) s

def ignore (a : Act σ Unit) : Act σ Unit := fun s =>
  match a s with
  | .ok _ s => .ok () s
  | .error _ s => .ok () s

def ofExcept : Except Failure α → Act σ α
  | .ok x => pure x
  | .error e => throw e

def onFst (a : Act σ α) : Act (σ × τ) α := fun s =>
  match a s.1 with
  | .ok x t => .ok x (t, s.2)
  | .error e t => .error e (t, s.2)

def onSnd (a : Act τ α) : Act (σ × τ) α := fun s =>
  match a s.2 with
  | .ok x t => .ok x (s.1, t)
  | .error e t => .error e (s.1, t)

def outcome (a : Act σ α) (s : σ) : Except Failure α × σ :=
  match a s with
  | .ok x s => (.ok x, s)
  | .error e s => (.error e, s)

end Act

end ChangeFeed
