import ChangeFeed.Data

namespace ChangeFeed

/-- The readings of a node. A reading that does not apply is `none`. -/
class Tree (ν : Type) where
  text? : ν → Option String
  natural? : ν → Option Nat
  /-- An optional value: absent, or there as the given node. -/
  optional? : ν → Option (Option ν)
  items? : ν → Option (List ν)
  /-- The members of a record in order. A name that is no text is `none`. -/
  members? : ν → Option (List (Option String × ν))
  /-- The values of a record that is written without names. -/
  row? : ν → Option (List ν)
  choice? : ν → Option String

namespace Tree

variable {ν : Type} [Tree ν]

def field? (members : List (Option String × ν)) (name : String) : Option (Option ν) :=
  match members.filter (·.1 = some name) with
  | [] => some none
  | [m] => some (some m.2)
  | _ => none

def admits (strict : Bool) (names : List String) (member : Option String × ν) : Bool :=
  match member.1 with
  | none => false
  | some name => !strict || name ∈ names

/-- The values of the named fields of a record, in the order of the names. A strict record has no
other fields. Written without names, the values come in the same order and the last ones may be
left out. -/
def fields (strict : Bool) (names : List String) (t : ν) : Option (List (Option ν)) :=
  match row? t with
  | some items =>
    if items.length ≤ names.length then
      some (items.map some ++ List.replicate (names.length - items.length) none)
    else none
  | none => do
    let members ← members? t
    if members.all (admits strict names) then names.mapM (field? members) else none

def list? {α : Type} (read : ν → Option α) (t : ν) : Option (List α) := do
  (← items? t).mapM read

def texts? (t : ν) : Option (List String) := list? text? t

def uint32? (t : ν) : Option UInt32 := do
  let n ← natural? t
  if n < UInt32.size then some (.ofNat n) else none

def uint64? (t : ν) : Option UInt64 := do
  let n ← natural? t
  if n < UInt64.size then some (.ofNat n) else none

def orElse {α : Type} (field : Option ν) (default : α) (read : ν → Option α) : Option α :=
  match field with
  | none => some default
  | some t => read t

def oneOf? {α : Type} (all : List α) (name : α → String) (t : ν) : Option α := do
  let chosen ← choice? t
  all.find? fun a => name a = chosen

end Tree

end ChangeFeed
