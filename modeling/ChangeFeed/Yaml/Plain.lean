import ChangeFeed.Yaml.Quoted

namespace ChangeFeed.Yaml.Plain

def isBracketOrComma (c : Char) : Bool :=
  c == ',' || c == '[' || c == ']' || c == '\x7b' || c == '\x7d'

/-- The word at the front, as its characters. Inside brackets, a colon directly before another
indicator is refused. -/
def readWord (inBrackets : Bool) : List Char → Option (List Char)
  | [] => some []
  | c :: rest =>
    if isBlank c || isBreak c then some []
    else if c = ':' ∧ inBrackets ∧ rest.head?.any (fun d => isBracketOrComma d || d == '?') then none
    else if c = ':' ∧ endsWord rest.head? then some []
    else if inBrackets && isBracketOrComma c then some []
    else (readWord inBrackets rest).map (c :: ·)

structure Read where
  text : List Char
  onLaterLine : Bool
  next : Cursor

def hasTabBefore (indent : Nat) (c : Cursor) : Bool :=
  let blanks := c.rest.takeWhile isBlank
  (blanks.take (indent - c.column)).any (· == '\t')

def readBreaks (indent : Nat) : Nat → Cursor → Option (List Char × Cursor)
  | 0, c => some ([], c)
  | fuel + 1, c =>
    match c.takeBreak with
    | none => some ([], c)
    | some (b, c) =>
      if hasTabBefore indent c then none
      else (readBreaks indent fuel (c.skipWhile isBlank)).map fun r => (b :: r.1, r.2)

def readGap (indent : Nat) (c : Cursor) : Option Gap := do
  let (blanks, c) := c.takeWhile isBlank
  let (breaks, next) ← readBreaks indent c.rest.length c
  return { blanks, breaks, next }

/-- The words of a scalar, `gap` being what stood before. A scalar goes on over a gap unless that is
followed by a document marker, a comment, or outside brackets by a line that is not indented. -/
def readWords (inBrackets : Bool) (indent : Nat) : Nat → List Char → Bool → Cursor → Option Read
  | 0, _, _, _ => none
  | fuel + 1, gap, onLaterLine, c =>
    if c.atAnyMarker || c.sees (· == '#') then some ⟨[], onLaterLine, c⟩
    else do
      let word ← readWord inBrackets c.rest
      if word = [] then return ⟨[], onLaterLine, c⟩
      let c := c.skip word.length
      if !c.sees fun d => isBlank d || isBreak d then return ⟨gap ++ word, false, c⟩
      let g ← readGap indent c
      let broken := !g.breaks.isEmpty
      if !inBrackets ∧ g.next.column < indent then return ⟨gap ++ word, broken, g.next⟩
      let r ← readWords inBrackets indent fuel g.folded broken g.next
      return { r with text := gap ++ word ++ r.text }

def read (inBrackets : Bool) (parentIndent : Int) (c : Cursor) : Option Read :=
  readWords inBrackets (parentIndent + 1).toNat (c.rest.length + 1) [] false c

end ChangeFeed.Yaml.Plain
