import ChangeFeed.Text.Space

namespace ChangeFeed

/-- Words and quoted phrases, each in a field or in none. `AND` binds more closely than `OR`; what is
only set side by side is joined by `OR`. -/
inductive SearchQuery where
  | empty
  | literal (field : Option String) (text : String)
  | both (p q : SearchQuery)
  | either (p q : SearchQuery)
  deriving DecidableEq

namespace SearchQuery

def fields : SearchQuery → List String
  | empty => []
  | literal field _ => field.toList
  | both p q | either p q => p.fields ++ q.fields

inductive Join where
  | and
  | or
  deriving DecidableEq

inductive Lexeme where
  | leftParen
  | rightParen
  | join (j : Join)
  | literal (field : Option String) (text : String)
  deriving DecidableEq

def isPlain (c : Char) : Bool := !Text.isSpace c && c ∉ "^\x60:\x7b\x7d\"'[]()\\".toList

def plainWord? (cs : List Char) : Option String :=
  let word := String.ofList cs
  match cs with
  | [] | '-' :: _ | '+' :: _ => none
  | _ => if word ∈ ["AND", "OR", "NOT", "IN"] then none else some word

def readPhrase (quote : Char) : List Char → Option (String × List Char)
  | [] => none
  | c :: rest =>
    if c = quote then some ("", rest)
    else (readPhrase quote rest).map fun (s, rest) => (String.ofList (c :: s.toList), rest)

def readText : List Char → Option (String × List Char)
  | '"' :: rest => readPhrase '"' rest
  | '\'' :: rest => readPhrase '\'' rest
  | cs => (plainWord? (cs.takeWhile isPlain)).map fun word => (word, cs.dropWhile isPlain)

def skipBlanks (cs : List Char) : List Char := cs.dropWhile Char.isWhitespace

def readLiteral (cs : List Char) : Option (Lexeme × List Char) :=
  match skipBlanks (cs.dropWhile isPlain) with
  | ':' :: rest => do
    let field ← plainWord? (cs.takeWhile isPlain)
    let (text, rest) ← readText (skipBlanks rest)
    return (.literal (some field) text, rest)
  | _ => (readText cs).map fun (text, rest) => (.literal none text, rest)

def endsOperand : List Char → Bool
  | [] => true
  | c :: _ => c.isWhitespace || c == ')'

def readLexeme (cs : List Char) : Option (Lexeme × List Char) :=
  match cs with
  | '(' :: rest => some (.leftParen, rest)
  | ')' :: rest => if endsOperand rest then some (.rightParen, rest) else none
  | 'A' :: 'N' :: 'D' :: c :: rest => if c.isWhitespace then some (.join .and, rest) else operand
  | 'O' :: 'R' :: c :: rest => if c.isWhitespace then some (.join .or, rest) else operand
  | _ => operand
where
  operand : Option (Lexeme × List Char) := do
    let (l, rest) ← readLiteral cs
    if endsOperand rest then return (l, rest) else none

def lexemes : Nat → List Char → Option (List Lexeme)
  | fuel, cs =>
    match skipBlanks cs with
    | [] => some []
    | cs =>
      match fuel with
      | 0 => none
      | fuel + 1 => do
        let (l, rest) ← readLexeme cs
        return l :: (← lexemes fuel rest)

/-- A group that is being read: what comes before the last `OR`, what is joined by `AND` after it,
and the operator that waits for its second operand. -/
structure Group where
  before : Option SearchQuery := none
  last : Option SearchQuery := none
  waiting : Option Join := none

namespace Group

def query? (g : Group) : Option SearchQuery :=
  match g.before, g.last with
  | some p, some q => some (.either p q)
  | none, q => q
  | some _, none => none

def push (g : Group) (q : SearchQuery) : Group :=
  match g.last, g.waiting with
  | some p, some .and => { g with last := some (.both p q), waiting := none }
  | _, _ => { before := g.query?, last := some q, waiting := none }

def join? (g : Group) (j : Join) : Option Group :=
  if g.last.isSome ∧ g.waiting = none then some { g with waiting := some j } else none

def close? (g : Group) : Option SearchQuery := if g.waiting = none then g.query? else none

end Group

def step : List Group → Lexeme → Option (List Group)
  | groups, .leftParen => some ({} :: groups)
  | inner :: outer :: rest, .rightParen => return outer.push (← inner.close?) :: rest
  | g :: rest, .join j => return (← g.join? j) :: rest
  | g :: rest, .literal field text => some (g.push (.literal field text) :: rest)
  | _, _ => none

def parse? (text : String) : Option SearchQuery := do
  let ls ← lexemes text.length text.toList
  if ls = [] then return empty
  match ← ls.foldlM step [{}] with
  | [g] => g.close?
  | _ => none

end SearchQuery

end ChangeFeed
