import ChangeFeed.Data
import ChangeFeed.Yaml.Cursor
import ChangeFeed.Yaml.Typed

namespace ChangeFeed.Yaml.Printer

def isPrintable (c : Char) : Bool :=
  let n := c.toNat
  n == 10 || (32 ≤ n && n ≤ 126) || (0xA0 ≤ n && n ≤ 0xFFFD && n != 0xFEFF) || 0x10000 ≤ n

def hasNeighbours (p q : Char → Bool) : List Char → Bool
  | a :: b :: rest => (p a && q b) || hasNeighbours p q (b :: rest)
  | _ => false

def isSpace (c : Char) : Bool := c == ' '

def isStartIndicator (c : Char) : Bool :=
  c ∈ ['#', ',', '[', ']', '\x7b', '\x7d', '&', '*', '!', '|', '>', '\'', '"', '%', '@', '\x60']

def hasInnerIndicator : List Char → Bool
  | a :: b :: rest =>
    (b == ':' && endsWord rest.head?) || (b == '#' && endsWord (some a)) ||
      hasInnerIndicator (b :: rest)
  | _ => false

def hasIndicator (s : List Char) : Bool :=
  let first := match s with
    | c :: rest =>
      isStartIndicator c || ((c == '?' || c == ':' || c == '-') && endsWord rest.head?)
    | [] => false
  s.take 3 == ['-', '-', '-'] || s.take 3 == ['.', '.', '.'] || first || hasInnerIndicator s

def needsEscapes (s : List Char) : Bool :=
  s.any (!isPrintable ·) || hasNeighbours isSpace isBreak s

def plainAllowed (s : List Char) : Bool :=
  !needsEscapes s && !s.any isBreak && !hasIndicator s &&
    !s.head?.any isSpace && !s.getLast?.any isSpace

def singleAllowed (s : List Char) : Bool := !needsEscapes s && !hasNeighbours isBreak isSpace s

def literalAllowed (s : List Char) : Bool := !needsEscapes s && !s.getLast?.any isSpace

inductive Style where
  | plain
  | single
  | double
  | literal

def style (s : List Char) : Style :=
  if s.contains '\n' then (if literalAllowed s then .literal else .double)
  else if plainAllowed s && !isTyped s then .plain
  else if singleAllowed s then .single
  else .double

/-- The characters of a text, with indentation after each line break. `atStart` tells whether a line
begins here. -/
def indented (indent : Nat) : Bool → List Char → List Char
  | _, [] => []
  | atStart, c :: rest =>
    if isBreak c then c :: indented indent true rest
    else if atStart then List.replicate indent ' ' ++ c :: indented indent false rest
    else c :: indented indent false rest

def single (indent : Nat) (s : List Char) : List Char :=
  let body := indented indent false (s.flatMap fun c => if c = '\'' then ['\'', '\''] else [c])
  let last := if s.getLast?.any isBreak then List.replicate indent ' ' else []
  '\'' :: body ++ last ++ ['\'']

def shortEscapes : List (Char × Char) :=
  [('\x00', '0'), ('\x07', 'a'), ('\x08', 'b'), ('\t', 't'), ('\n', 'n'), ('\x0b', 'v'),
   ('\x0c', 'f'), ('\r', 'r'), ('\x1b', 'e'), ('"', '"'), ('\\', '\\'), ('\u0085', 'N'),
   ('\u2028', 'L'), ('\u2029', 'P')]

def escape (c : Char) : List Char :=
  if isPrintable c && !isBreak c && c != '"' && c != '\\' then [c]
  else match shortEscapes.lookup c with
    | some letter => ['\\', letter]
    | none =>
      let n := c.toNat
      let upper (size : Nat) := (Text.hexDigits size n).map Char.toUpper
      if n ≤ 0xFF then '\\' :: 'x' :: upper 2
      else if n ≤ 0xFFFF then '\\' :: 'u' :: upper 4
      else '\\' :: 'U' :: upper 8

def double (s : List Char) : List Char := '"' :: s.flatMap escape ++ ['"']

/-- What the header of a literal block says: the indentation, if the text does not show it, and how
many line breaks there are at the end. -/
def literalHeader (s : List Char) : List Char :=
  let indentation := if s.head?.any fun c => isSpace c || isBreak c then ['2'] else []
  let ending := match s.reverse with
    | [] => ['-']
    | a :: rest =>
      if !isBreak a then ['-']
      else if rest.head?.all isBreak then ['+']
      else []
  '|' :: indentation ++ ending

def literal (indent : Nat) (s : List Char) : List Char :=
  literalHeader s ++ '\n' :: indented indent true s

def text (indent : Nat) (s : String) : List Char :=
  let cs := s.toList
  match style cs with
  | .plain => cs
  | .single => single indent cs
  | .double => double cs
  | .literal => literal indent cs

def endLine (cs : List Char) : List Char := if cs.getLast?.any isBreak then cs else cs ++ ['\n']

def spaces (indent : Nat) : List Char := List.replicate indent ' '

mutual

/-- What follows a key or the mark of an item, to the end of its last line. Items and members stand
at their own indentation; `compact` puts the first of them on the line begun. -/
def render (compact : Bool) (items members : Nat) : Data → List Char
  | .null => [' ', 'n', 'u', 'l', 'l', '\n']
  | .bool true => [' ', 't', 'r', 'u', 'e', '\n']
  | .bool false => [' ', 'f', 'a', 'l', 's', 'e', '\n']
  | .int n => ' ' :: Data.intText n ++ ['\n']
  | .text s => ' ' :: endLine (text members s)
  | .list [] => [' ', '[', ']', '\n']
  | .record [] => [' ', '\x7b', '\x7d', '\n']
  | .list (d :: rest) =>
    (if compact then [' '] else '\n' :: spaces items) ++
      '-' :: render true (items + 2) (items + 2) d ++ renderItems items rest
  | .record ((name, d) :: rest) =>
    (if compact then [' '] else '\n' :: spaces members) ++
      name.toList ++ ':' :: render false members (members + 2) d ++ renderMembers members rest

def renderItems (indent : Nat) : List Data → List Char
  | [] => []
  | d :: rest =>
    spaces indent ++ '-' :: render true (indent + 2) (indent + 2) d ++ renderItems indent rest

def renderMembers (indent : Nat) : List (String × Data) → List Char
  | [] => []
  | (name, d) :: rest =>
    spaces indent ++ name.toList ++ ':' :: render false indent (indent + 2) d ++
      renderMembers indent rest

end

/-- The YAML text of a record, the names of its members being plain words. -/
def print : Data → String
  | .record members => String.ofList (renderMembers 0 members)
  | d => String.ofList (render true 0 0 d).tail

end ChangeFeed.Yaml.Printer
