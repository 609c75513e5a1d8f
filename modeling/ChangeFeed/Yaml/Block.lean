import ChangeFeed.Yaml.Cursor

namespace ChangeFeed.Yaml.Block

inductive Chomp where
  | strip
  | clip
  | keep

structure Header where
  chomp : Chomp := .clip
  increment : Option Nat := none

def chompOf? (c : Char) : Option Chomp :=
  if c = '+' then some .keep else if c = '-' then some .strip else none

def incrementOf? (c : Char) : Option Nat :=
  if '1' ≤ c ∧ c ≤ '9' then some (c.toNat - 48) else none

def readHeader (rest : List Char) : Option (Header × Nat) := do
  let some a := rest.head? | return ({}, 0)
  let b := rest.tail.head?
  match chompOf? a, incrementOf? a with
  | some chomp, _ =>
    if b = some '0' then none
    match b >>= incrementOf? with
    | some n => return (⟨chomp, some n⟩, 2)
    | none => return (⟨chomp, none⟩, 1)
  | none, some n =>
    match b >>= chompOf? with
    | some chomp => return (⟨chomp, some n⟩, 2)
    | none => return (⟨.clip, some n⟩, 1)
  | none, none => if a = '0' then none else return ({}, 0)

def skipIndent (indent : Option Nat) (c : Cursor) : Cursor :=
  let spaces := (c.rest.takeWhile (· == ' ')).length
  match indent with
  | none => c.skip spaces
  | some n => c.skip (min spaces (n - c.column))

/-- The empty lines here, as the line breaks they stand for, the widest indentation met, and the
position at the text of the next line. A tab in the place of indentation is refused. -/
def readEmptyLines (indent : Option Nat) :
    Nat → Nat → Cursor → Option (List Char × Nat × Cursor)
  | 0, _, _ => none
  | fuel + 1, widest, c =>
    let c := skipIndent indent c
    let widest := max widest c.column
    if c.sees (· == '\t') && indent.all (c.column < ·) then none
    else match c.takeBreak with
      | none => some ([], widest, c)
      | some (b, c) =>
        (readEmptyLines indent fuel widest c).map fun (bs, widest, c) => (b :: bs, widest, c)

/-- What the line breaks before a line stand for, in a folded scalar only if neither of the lines
beside them starts with a blank. -/
def joinLines (folded : Bool) (lastBreak : List Char) (empty : List Char) : List Char :=
  if folded && lastBreak == ['\n'] then (if empty.isEmpty then [' '] else empty)
  else lastBreak ++ empty

/-- The lines of a scalar, each with its line break. `lastBreak` and `empty` are the break of the
line before and the empty lines after that; `afterBlank` tells whether that line began with a
blank. -/
def readLines (literal : Bool) (chomp : Chomp) (indent : Nat) :
    Nat → List Char → List Char → Bool → Cursor → Option (List Char × Cursor)
  | 0, _, _, _, _ => none
  | fuel + 1, lastBreak, empty, afterBlank, c =>
    if c.column = indent ∧ c.rest ≠ [] then do
      let startsBlank := c.sees isBlank
      let folded := !literal && !afterBlank && !startsBlank
      let (line, c) := c.takeWhile (!isBreak ·)
      let (lineBreak, c) := match c.takeBreak with
        | some (b, c) => ([b], c)
        | none => ([], c)
      let (later, _, c) ← readEmptyLines (some indent) (c.rest.length + 1) 0 c
      let (text, c) ← readLines literal chomp indent fuel lineBreak later startsBlank c
      return (joinLines folded lastBreak empty ++ line ++ text, c)
    else
      let tail := match chomp with
        | .strip => []
        | .clip => lastBreak
        | .keep => lastBreak ++ empty
      some (tail, c)

/-- A block scalar after its indicator. Without a given indentation, the first line that is not
empty sets it, but it is deeper than that of the parent. -/
def read (literal : Bool) (parentIndent : Int) (c : Cursor) : Option (List Char × Cursor) := do
  let (header, size) ← readHeader c.rest
  let c := (c.skip size).skipComment isBlank
  if !endsLine c.peek then none
  let c := match c.takeBreak with
    | some (_, c) => c
    | none => c
  let given := header.increment.map fun n => if 0 ≤ parentIndent then parentIndent.toNat + n else n
  let (empty, widest, c) ← readEmptyLines given (c.rest.length + 1) 0 c
  let indent := given.getD (max (max widest (parentIndent + 1).toNat) 1)
  readLines literal header.chomp indent (c.rest.length + 1) [] empty false c

end ChangeFeed.Yaml.Block
