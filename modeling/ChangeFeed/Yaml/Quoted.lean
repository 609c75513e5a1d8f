import ChangeFeed.Text.Hex
import ChangeFeed.Yaml.Cursor

namespace ChangeFeed.Yaml

structure Gap where
  blanks : List Char
  /-- What the line breaks stand for. Blanks beside a break are dropped. -/
  breaks : List Char
  next : Cursor

def readBreaks : Nat → Cursor → List Char × Cursor
  | 0, c => ([], c)
  | fuel + 1, c =>
    match c.takeBreak with
    | none => ([], c)
    | some (b, c) =>
      let (bs, c) := readBreaks fuel (c.skipWhile isBlank)
      (b :: bs, c)

def readGap (c : Cursor) : Gap :=
  let (blanks, c) := c.takeWhile isBlank
  let (breaks, next) := readBreaks c.rest.length c
  { blanks, breaks, next }

def Gap.folded (g : Gap) : List Char :=
  match g.breaks with
  | [] => g.blanks
  | '\n' :: [] => [' ']
  | '\n' :: later => later
  | breaks => breaks

namespace Quoted

def simpleEscapes : List (Char × Char) :=
  [('0', '\x00'), ('a', '\x07'), ('b', '\x08'), ('t', '\t'), ('\t', '\t'), ('n', '\n'),
   ('v', '\x0b'), ('f', '\x0c'), ('r', '\r'), ('e', '\x1b'), (' ', ' '), ('"', '"'), ('/', '/'),
   ('\\', '\\'), ('N', '\u0085'), ('_', '\u00a0'), ('L', '\u2028'), ('P', '\u2029')]

def codeEscapes : List (Char × Nat) := [('x', 2), ('u', 4), ('U', 8)]

def charOf? (n : Nat) : Option Char := if n.isValidChar then some (Char.ofNat n) else none

def readEscape : List Char → Option (Char × Nat)
  | [] => none
  | e :: rest =>
    match simpleEscapes.lookup e with
    | some c => some (c, 1)
    | none => do
      let size ← codeEscapes.lookup e
      let digits := rest.take size
      if digits.length < size then none
      return (← charOf? (← Text.hexValue? digits), size + 1)

def readSingle : Nat → Cursor → Option (List Char × Cursor)
  | 0, _ => none
  | fuel + 1, c =>
    if c.atAnyMarker then none
    else match c.rest with
      | [] => none
      | '\'' :: '\'' :: _ => (readSingle fuel (c.skip 2)).map fun r => ('\'' :: r.1, r.2)
      | '\'' :: _ => some ([], c.skip 1)
      | x :: _ =>
        if isBlank x || isBreak x then
          let g := readGap c
          (readSingle fuel g.next).map fun r => (g.folded ++ r.1, r.2)
        else (readSingle fuel (c.skip 1)).map fun r => (x :: r.1, r.2)

/-- The text of a scalar in double quotes, after the opening one. A backslash at the end of a line
joins it to the next one. -/
def readDouble : Nat → Cursor → Option (List Char × Cursor)
  | 0, _ => none
  | fuel + 1, c =>
    if c.atAnyMarker then none
    else match c.rest with
      | [] => none
      | '"' :: _ => some ([], c.skip 1)
      | '\\' :: rest =>
        match (c.skip 1).takeBreak with
        | some (_, c) =>
          let g := readGap c
          (readDouble fuel g.next).map fun r => (g.breaks ++ r.1, r.2)
        | none => do
          let (x, size) ← readEscape rest
          let (text, c) ← readDouble fuel (c.skip (size + 1))
          return (x :: text, c)
      | x :: _ =>
        if isBlank x || isBreak x then
          let g := readGap c
          (readDouble fuel g.next).map fun r => (g.folded ++ r.1, r.2)
        else (readDouble fuel (c.skip 1)).map fun r => (x :: r.1, r.2)

end Quoted

end ChangeFeed.Yaml
