import ChangeFeed.Log.Store

namespace ChangeFeed

/-- The rows of one log table that were fetched and not yet delivered. -/
structure Window where
  model : LogModel
  rows : List LogRow := []
  lastSeen : Option Int64 := none
  exhausted : Bool := false

namespace Window

/-- The last sequence id after `rows`, if the ids ascend from `last` on; else the first row that
breaks the order. -/
def ascend (last : Option Int64) : List LogRow → Except LogRow (Option Int64)
  | [] => .ok last
  | r :: rest =>
    if last.any (r.sequence ≤ ·) then .error r else ascend (some r.sequence) rest

def accept (w : Window) (size : Nat) (rows : List LogRow) : Except Failure Window :=
  match ascend w.lastSeen rows with
  | .error r => .error (.outOfOrder w.model.logTable r.sequence)
  | .ok last =>
    .ok { w with rows := w.rows ++ rows, lastSeen := last, exhausted := rows.length < size }

def fill {σ : Type} (fetch : FetchWindow σ) (size : Nat) (w : Window) : Act σ Window := do
  let rows ← fetch w.model w.lastSeen size
  Act.ofExcept (w.accept size rows)

end Window

abbrev Delivery := Nat × LogRow

/-- Several log tables as one ascending stream of rows, with a window for each. A window that runs empty
is filled again at once, unless its last fetch came back short. -/
structure Merge where
  size : Nat
  windows : List Window
  opened : Bool := false
  finished : Bool := false
  current : Option Delivery := none

namespace Merge

variable {σ : Type}

def new (models : List LogModel) (size : Nat) : Merge where
  size := max size 1
  windows := models.map fun model => { model }

/-- Fetches the first window of every table. A merge that could not be opened may be tried again. -/
def start (fetch : FetchWindow σ) : Act (Merge × σ) Unit := do
  let (m, _) ← get
  if m.opened then throw .alreadyOpen
  let windows ← Act.onSnd (m.windows.mapM fun w => Window.fill fetch m.size { model := w.model })
  modify fun (m, s) => ({ m with windows, opened := true }, s)

/-- The position of the window with the least head; of equal heads the first. -/
def leastHead : Nat → List Window → Option Delivery
  | _, [] => none
  | i, w :: rest =>
    match w.rows.head?, leastHead (i + 1) rest with
    | none, later => later
    | some r, none => some (i, r)
    | some r, some (j, r') => if r.sequence ≤ r'.sequence then some (i, r) else some (j, r')

def next (fetch : FetchWindow σ) : Act (Merge × σ) Bool := do
  let (m, _) ← get
  if ¬ m.opened then throw .notOpen
  if m.finished then return false
  match leastHead 0 m.windows with
  | none =>
    modify fun (m, s) => ({ m with current := none, finished := true }, s)
    return false
  | some (i, row) =>
    let popped := m.windows.modify i fun w => { w with rows := w.rows.tail }
    modify fun (m, s) => ({ m with windows := popped }, s)
    match popped[i]? with
    | some w =>
      if w.rows.isEmpty && !w.exhausted then
        let w ← Act.onSnd (w.fill fetch m.size)
        modify fun (m, s) => ({ m with windows := popped.set i w }, s)
    | none => pure ()
    modify fun (m, s) => ({ m with current := some (i, row) }, s)
    return true

def current? (m : Merge) : Except Failure Delivery :=
  match m.current with
  | some d => .ok d
  | none => .error .noCurrentRow

def currentModel (m : Merge) : Except Failure LogModel := do
  let (i, _) ← m.current?
  match m.windows[i]? with
  | some w => .ok w.model
  | none => .error .noCurrentRow

def foldRows {β : Type} (fetch : FetchWindow σ) (step : β → Delivery → Except Failure β) :
    Nat → β → Act (Merge × σ) β
  | 0, acc => pure acc
  | n + 1, acc => do
    if ← next fetch then
      let (m, _) ← get
      let acc ← Act.ofExcept (m.current? >>= step acc)
      foldRows fetch step n acc
    else
      return acc

end Merge

end ChangeFeed
