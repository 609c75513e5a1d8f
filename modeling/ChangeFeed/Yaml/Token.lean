import ChangeFeed.Yaml.Block
import ChangeFeed.Yaml.Plain

namespace ChangeFeed.Yaml

inductive Token where
  | versionDirective (major minor : Nat)
  | tagDirective (handle lead : String)
  | documentStart
  | documentEnd
  | blockListStart
  | blockMapStart
  | blockEnd
  | flowListStart
  | flowListEnd
  | flowMapStart
  | flowMapEnd
  | blockEntry
  | flowEntry
  | key
  | value
  | alias (name : String)
  | anchor (name : String)
  | tag (handle suffix : String)
  | scalar (plain : Bool) (text : String)
  deriving DecidableEq

structure PossibleKey where
  required : Bool
  position : Nat
  start : Cursor

structure Lexer where
  cursor : Cursor
  tokens : List Token := []
  indent : Int := -1
  outerIndents : List Int := []
  keyAllowed : Bool := true
  /-- The key that may have begun, outside of all brackets or inside the innermost ones, and those
  outside of these brackets. -/
  possibleKey : Option PossibleKey := none
  outerKeys : List (Option PossibleKey) := []

namespace Lexer

def inBrackets (l : Lexer) : Bool := !l.outerKeys.isEmpty

def add (l : Lexer) (t : Token) : Lexer := { l with tokens := l.tokens ++ [t] }

def addAt (l : Lexer) (position : Nat) (t : Token) : Lexer :=
  { l with tokens := l.tokens.insertIdx position t }

def openBlock (l : Lexer) (column position : Nat) (t : Token) : Lexer :=
  if !l.inBrackets && l.indent < column then
    { l with indent := column, outerIndents := l.indent :: l.outerIndents }.addAt position t
  else l

def closeFrom (column : Int) : Int → List Int → Nat × Int × List Int
  | indent, [] => (0, indent, [])
  | indent, outer :: rest =>
    if column < indent then
      let (n, r) := closeFrom column outer rest
      (n + 1, r)
    else (0, indent, outer :: rest)

def closeBlocks (l : Lexer) (column : Int) : Lexer :=
  if l.inBrackets then l
  else
    let (n, indent, outerIndents) := closeFrom column l.indent l.outerIndents
    { l with indent, outerIndents, tokens := l.tokens ++ List.replicate n .blockEnd }

/-- Gives up the possible key. One that is required cannot be given up. -/
def dropKey (l : Lexer) : Option Lexer :=
  if l.possibleKey.any (·.required) then none else some { l with possibleKey := none }

def saveKey (l : Lexer) : Option Lexer :=
  if l.keyAllowed then do
    let required := !l.inBrackets && l.indent == l.cursor.column
    let l ← l.dropKey
    return { l with possibleKey := some ⟨required, l.tokens.length, l.cursor⟩ }
  else some l

/-- A key stays on one line and is not longer than 1024 characters. -/
def keyExpired (l : Lexer) (k : PossibleKey) : Bool :=
  k.start.line < l.cursor.line || k.start.index + 1024 < l.cursor.index

def liveKey (l : Lexer) : Option (Option PossibleKey) :=
  match l.possibleKey with
  | none => some none
  | some k =>
    if l.keyExpired k then (if k.required then none else some none) else some (some k)

def skip (l : Lexer) (n : Nat) : Lexer := { l with cursor := l.cursor.skip n }

def isBlockTab (l : Lexer) (c : Char) : Bool :=
  c == ' ' || (c == '\t' && (l.inBrackets || !l.keyAllowed))

/-- Passes over blanks, comments and empty lines. Outside of brackets, a key may begin on each new
line; where one may begin, a tab is no blank. -/
def skipToToken : Nat → Lexer → Lexer
  | 0, l => l
  | fuel + 1, l =>
    let cursor := l.cursor.skipComment l.isBlockTab
    match cursor.takeBreak with
    | none => { l with cursor }
    | some (_, cursor) =>
      skipToToken fuel { l with cursor, keyAllowed := l.keyAllowed || !l.inBrackets }

def isNameChar (c : Char) : Bool := c.isAlphanum || c == '_' || c == '-'

def isTagChar (verbatim : Bool) (c : Char) : Bool :=
  isNameChar c ||
    c ∈ [';', '/', '?', ':', '@', '&', '=', '+', '$', '.', '!', '~', '*', '\'', '(', ')'] ||
    (verbatim && c ∈ [',', '[', ']'])

def tagBytes (verbatim : Bool) : List Char → Option (List UInt8 × Nat)
  | [] => some ([], 0)
  | '%' :: a :: b :: rest => do
    let byte ← Text.hexValue? [a, b]
    let (bytes, size) ← tagBytes verbatim rest
    return (byte.toUInt8 :: bytes, size + 3)
  | c :: rest =>
    if c = '%' then none
    else if isTagChar verbatim c then do
      let (bytes, size) ← tagBytes verbatim rest
      return (c.toNat.toUInt8 :: bytes, size + 1)
    else some ([], 0)

def readTagText (verbatim : Bool) (c : Cursor) : Option (String × Cursor) := do
  let (bytes, size) ← tagBytes verbatim c.rest
  return (← String.fromUTF8? ⟨bytes.toArray⟩, c.skip size)

def readHandle (c : Cursor) : Option (String × Cursor) :=
  let (name, next) := (c.skip 1).takeWhile isNameChar
  if !c.sees (· == '!') then none
  else if next.sees (· == '!') then some (String.ofList ('!' :: name ++ ['!']), next.skip 1)
  else some (String.ofList ('!' :: name), next)

def readTag (inBrackets : Bool) (c : Cursor) : Option (Token × Cursor) := do
  let (tag, next) ←
    if c.peekAt 1 = some '<' then do
      let (text, next) ← readTagText true (c.skip 2)
      if text = "" ∨ !next.sees (· == '>') then none
      pure (Token.tag "" text, next.skip 1)
    else do
      let (handle, next) ← readHandle c
      if 1 < handle.length ∧ handle.endsWith "!" then
        let (suffix, next) ← readTagText false next
        if suffix = "" then none
        pure (Token.tag handle suffix, next)
      else
        let (suffix, next) ← readTagText false next
        let suffix := (handle.drop 1).toString ++ suffix
        if suffix = "" then pure (Token.tag "" "!", next) else pure (Token.tag "!" suffix, next)
  if endsWord next.peek ∨ (inBrackets ∧ next.sees (· == ',')) then some (tag, next) else none

def readNumber (c : Cursor) : Option (Nat × Cursor) :=
  let (digits, next) := c.takeWhile Char.isDigit
  if digits.isEmpty || 9 < digits.length then none
  else some (Nat.ofDigitChars 10 digits 0, next)

def readDirective (c : Cursor) : Option (Token × Cursor) := do
  let (name, next) := c.takeWhile isNameChar
  if !endsWord next.peek then none
  let (token, next) ←
    if name = ['Y', 'A', 'M', 'L'] then do
      let (major, next) ← readNumber (next.skipWhile isBlank)
      if !next.sees (· == '.') then none
      let (minor, next) ← readNumber (next.skip 1)
      pure (Token.versionDirective major minor, next)
    else if name = ['T', 'A', 'G'] then do
      let (handle, next) ← readHandle (next.skipWhile isBlank)
      if handle ≠ "!" ∧ ¬ handle.endsWith "!" then none
      if !next.sees isBlank then none
      let (lead, next) ← readTagText true (next.skipWhile isBlank)
      if lead = "" ∨ !endsWord next.peek then none
      pure (Token.tagDirective handle lead, next)
    else none
  let next := next.skipComment isBlank
  if !endsLine next.peek then none
  return (token, next)

def readName (c : Cursor) : Option (String × Cursor) :=
  let (name, next) := c.takeWhile isNameChar
  if name.isEmpty then none
  else if endsWord next.peek || next.sees (· ∈ ['?', ':', ',', ']', '\x7d', '%', '@', '\x60']) then
    some (String.ofList name, next)
  else none

def openBrackets (l : Lexer) (t : Token) : Option Lexer := do
  let l ← l.saveKey
  return { l with
    outerKeys := l.possibleKey :: l.outerKeys
    possibleKey := none
    keyAllowed := true }.add t |>.skip 1

def closeBrackets (l : Lexer) (t : Token) : Option Lexer := do
  let l ← l.dropKey
  let l := match l.outerKeys with
    | [] => l
    | k :: rest => { l with possibleKey := k, outerKeys := rest }
  return { l with keyAllowed := false }.add t |>.skip 1

def flowEntry (l : Lexer) : Option Lexer := do
  let l ← l.dropKey
  return { l with keyAllowed := true }.add .flowEntry |>.skip 1

def blockEntry (l : Lexer) : Option Lexer := do
  if !l.inBrackets && !l.keyAllowed then none
  let l ← (l.openBlock l.cursor.column l.tokens.length .blockListStart).dropKey
  return { l with keyAllowed := true }.add .blockEntry |>.skip 1

def explicitKey (l : Lexer) : Option Lexer := do
  if !l.inBrackets && !l.keyAllowed then none
  let l ← (l.openBlock l.cursor.column l.tokens.length .blockMapStart).dropKey
  return { l with keyAllowed := !l.inBrackets }.add .key |>.skip 1

def mapValue (l : Lexer) : Option Lexer := do
  match ← l.liveKey with
  | some k =>
    let l := (l.addAt k.position .key).openBlock k.start.column k.position .blockMapStart
    return { l with possibleKey := none, keyAllowed := false }.add .value |>.skip 1
  | none =>
    let l := { l with possibleKey := none }
    if !l.inBrackets && !l.keyAllowed then none
    let l := l.openBlock l.cursor.column l.tokens.length .blockMapStart
    return { l with keyAllowed := !l.inBrackets }.add .value |>.skip 1

/-- A token that may be a key or the beginning of one, and that no other key can follow directly. -/
def keyLike (l : Lexer) (read : Cursor → Option (Token × Cursor)) : Option Lexer := do
  let l ← l.saveKey
  let (token, cursor) ← read l.cursor
  return { l with keyAllowed := false, cursor }.add token

def blockScalar (l : Lexer) (literal : Bool) : Option Lexer := do
  let l ← l.dropKey
  let (text, cursor) ← Block.read literal l.indent (l.cursor.skip 1)
  return { l with keyAllowed := true, cursor }.add (.scalar false (String.ofList text))

def plainScalar (l : Lexer) : Option Lexer := do
  let l ← l.saveKey
  let r ← Plain.read l.inBrackets l.indent l.cursor
  return { l with keyAllowed := r.onLaterLine, cursor := r.next }.add
    (.scalar true (String.ofList r.text))

def topLevel (l : Lexer) (read : Cursor → Option (Token × Cursor)) : Option Lexer := do
  let l ← (l.closeBlocks (-1)).dropKey
  let (token, cursor) ← read l.cursor
  return { l with keyAllowed := false, cursor }.add token

def readQuoted (read : Nat → Cursor → Option (List Char × Cursor)) (c : Cursor) :
    Option (Token × Cursor) :=
  (read (c.rest.length + 1) (c.skip 1)).map fun r => (.scalar false (String.ofList r.1), r.2)

def startsPlain (inBrackets : Bool) (c : Char) (next : Option Char) : Bool :=
  let blankNext := next.any isBlank
  if c ∈ ['-', '?', ':', ',', '[', ']', '\x7b', '\x7d', '#', '&', '*', '!', '|', '>', '\'', '"',
      '%', '@', '\x60'] then
    (c == '-' && !blankNext) || (!inBrackets && (c == '?' || c == ':') && !endsWord next)
  else !(isBlank c || isBreak c)

def readToken (l : Lexer) (c : Char) : Option Lexer :=
  let next := l.cursor.peekAt 1
  let flow := l.inBrackets
  if l.cursor.column = 0 ∧ c = '%' then
    l.topLevel fun cursor => readDirective (cursor.skip 1)
  else if l.cursor.atMarker '-' then l.topLevel fun cursor => some (.documentStart, cursor.skip 3)
  else if l.cursor.atMarker '.' then l.topLevel fun cursor => some (.documentEnd, cursor.skip 3)
  else if c = '[' then l.openBrackets .flowListStart
  else if c = '\x7b' then l.openBrackets .flowMapStart
  else if c = ']' then l.closeBrackets .flowListEnd
  else if c = '\x7d' then l.closeBrackets .flowMapEnd
  else if c = ',' then l.flowEntry
  else if c = '-' ∧ endsWord next then l.blockEntry
  else if c = '?' ∧ (flow ∨ endsWord next) then l.explicitKey
  else if c = ':' ∧ (flow ∨ endsWord next) then l.mapValue
  else if c = '*' then
    l.keyLike fun cursor => (readName (cursor.skip 1)).map fun r => (.alias r.1, r.2)
  else if c = '&' then
    l.keyLike fun cursor => (readName (cursor.skip 1)).map fun r => (.anchor r.1, r.2)
  else if c = '!' then l.keyLike (readTag flow)
  else if c = '|' ∧ ¬ flow then l.blockScalar true
  else if c = '>' ∧ ¬ flow then l.blockScalar false
  else if c = '\'' then l.keyLike (readQuoted Quoted.readSingle)
  else if c = '"' then l.keyLike (readQuoted Quoted.readDouble)
  else if startsPlain flow c next then l.plainScalar
  else none

/-- Reads tokens up to the end of the text. Every token takes at least one character. -/
def run : Nat → Lexer → Option (List Token)
  | 0, _ => none
  | fuel + 1, l => do
    let l := skipToToken (l.cursor.rest.length + 1) l
    let l := l.closeBlocks l.cursor.column
    match l.cursor.peek with
    | none => return (← (l.closeBlocks (-1)).dropKey).tokens
    | some c => run fuel (← l.readToken c)

end Lexer

def tokenize (text : List Char) : Option (List Token) :=
  if text.all isAllowed then
    let start : Cursor := { rest := text }
    let start := if start.sees (· == '\ufeff') then start.skip 1 else start
    Lexer.run (text.length + 1) { cursor := start }
  else none

end ChangeFeed.Yaml
