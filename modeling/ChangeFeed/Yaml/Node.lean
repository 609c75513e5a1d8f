import ChangeFeed.Yaml.Token

namespace ChangeFeed.Yaml

inductive Node where
  | scalar (tag : Option String) (plain : Bool) (text : String)
  | list (items : List Node)
  | map (members : List (Node × Node))

namespace Node

def empty : Node := scalar none true ""

end Node

/-- The named nodes of a document, under the numbers of their occurrences. A node has its name from
its first token on, but cannot be referred to before its end. -/
structure Anchors where
  numbers : List (String × Nat) := []
  nodes : List (Nat × Node) := []
  count : Nat := 0

namespace Anchors

def start (a : Anchors) : Option String → Anchors
  | none => a
  | some name => { a with numbers := (name, a.count) :: a.numbers, count := a.count + 1 }

def finish (a : Anchors) (number : Nat) (node : Node) : Anchors :=
  { a with nodes := (number, node) :: a.nodes }

def find? (a : Anchors) (name : String) : Option Node := do
  let number ← a.numbers.lookup name
  a.nodes.lookup number

end Anchors

structure Composer where
  tokens : List Token
  anchors : Anchors := {}
  handles : List (String × String)

abbrev Compose (α : Type) := StateT Composer Option α

namespace Compose

def peek : Compose (Option Token) := return (← get).tokens.head?

def advance : Compose Unit := modify fun c => { c with tokens := c.tokens.tail }

def accept (t : Token) : Compose Bool := do
  if (← peek) = some t then
    advance
    return true
  else return false

def expect (t : Token) : Compose Unit := do
  if !(← accept t) then failure

def resolveTag (handle suffix : String) : Compose String := do
  if handle = "" then return suffix
  match (← get).handles.lookup handle with
  | some lead => return lead ++ suffix
  | none => failure

structure Properties where
  anchor : Option String := none
  tag : Option String := none

def anchor? : Compose (Option String) := do
  match ← peek with
  | some (.anchor name) => advance; return some name
  | _ => return none

def tag? : Compose (Option String) := do
  match ← peek with
  | some (.tag handle suffix) => advance; return some (← resolveTag handle suffix)
  | _ => return none

def properties : Compose Properties := do
  match ← anchor? with
  | some name => return ⟨some name, ← tag?⟩
  | none => do
    match ← tag? with
    | some tag => return ⟨← anchor?, some tag⟩
    | none => return {}

def atAny (ts : List Token) : Compose Bool := return (← peek).any (· ∈ ts)

def missing (p : Properties) : Compose Node :=
  if p.anchor.isSome || p.tag.isSome then return .scalar p.tag true "" else failure

mutual

/-- A node with its properties. As the value of a key, a list needs no indentation of its own. -/
def node (unindented : Bool) : Nat → Compose Node
  | 0 => failure
  | fuel + 1 => do
    match ← peek with
    | some (.alias name) => do
      advance
      match (← get).anchors.find? name with
      | some n => return n
      | none => failure
    | _ => do
      let p ← properties
      let number := (← get).anchors.count
      modify fun c => { c with anchors := c.anchors.start p.anchor }
      let n ← content unindented p fuel
      if p.anchor.isSome then modify fun c => { c with anchors := c.anchors.finish number n }
      return n

def content (unindented : Bool) (p : Properties) : Nat → Compose Node
  | 0 => failure
  | fuel + 1 => do
    match ← peek with
    | some (.scalar plain text) => do
      advance
      return .scalar (if p.tag = some "!" then none else p.tag) plain text
    | some .flowListStart => advance; return .list (← flowItems true fuel)
    | some .flowMapStart => advance; return .map (← flowMembers true fuel)
    | some .blockListStart => advance; return .list (← blockItems fuel)
    | some .blockMapStart => advance; return .map (← blockMembers fuel)
    | some .blockEntry => if unindented then return .list (← entries fuel) else missing p
    | _ => missing p

def nodeUnless (ts : List Token) (unindented : Bool) : Nat → Compose Node
  | 0 => failure
  | fuel + 1 => do if ← atAny ts then return .empty else node unindented fuel

def blockItems : Nat → Compose (List Node)
  | 0 => failure
  | fuel + 1 => do
    if ← accept .blockEntry then
      let n ← nodeUnless [.blockEntry, .blockEnd] false fuel
      return n :: (← blockItems fuel)
    else
      expect .blockEnd
      return []

def entries : Nat → Compose (List Node)
  | 0 => failure
  | fuel + 1 => do
    if ← accept .blockEntry then
      let n ← nodeUnless [.blockEntry, .key, .value, .blockEnd] false fuel
      return n :: (← entries fuel)
    else return []

def blockMembers : Nat → Compose (List (Node × Node))
  | 0 => failure
  | fuel + 1 => do
    if ← accept .key then
      let k ← nodeUnless [.key, .value, .blockEnd] true fuel
      let v ← value [.key, .value, .blockEnd] true fuel
      return (k, v) :: (← blockMembers fuel)
    else
      expect .blockEnd
      return []

def value (ts : List Token) (unindented : Bool) : Nat → Compose Node
  | 0 => failure
  | fuel + 1 => do
    if ← accept .value then nodeUnless ts unindented fuel else return .empty

def flowItems (first : Bool) : Nat → Compose (List Node)
  | 0 => failure
  | fuel + 1 => do
    if ← accept .flowListEnd then return []
    else
      if !first then expect .flowEntry
      if ← accept .flowListEnd then return []
      else
        let n ← flowItem fuel
        return n :: (← flowItems false fuel)

/-- An item. A pair is a map of its own; if it has no key, its first token is lost. -/
def flowItem : Nat → Compose Node
  | 0 => failure
  | fuel + 1 => do
    if ← accept .key then
      if ← atAny [.value, .flowEntry, .flowListEnd] then
        advance
        return .map [(.empty, ← value [.flowEntry, .flowListEnd] false fuel)]
      else
        let k ← node false fuel
        return .map [(k, ← value [.flowEntry, .flowListEnd] false fuel)]
    else node false fuel

def flowMembers (first : Bool) : Nat → Compose (List (Node × Node))
  | 0 => failure
  | fuel + 1 => do
    if ← accept .flowMapEnd then return []
    else
      if !first then expect .flowEntry
      if ← accept .flowMapEnd then return []
      else
        let m ← flowMember fuel
        return m :: (← flowMembers false fuel)

/-- A key with its value. A node that no key token announces is a key without a value. -/
def flowMember : Nat → Compose (Node × Node)
  | 0 => failure
  | fuel + 1 => do
    if ← accept .key then
      let k ← nodeUnless [.value, .flowEntry, .flowMapEnd] false fuel
      return (k, ← value [.flowEntry, .flowMapEnd] false fuel)
    else return (← node false fuel, .empty)

end

def directives (versioned : Bool) : Nat → Compose Unit
  | 0 => failure
  | fuel + 1 => do
    match ← peek with
    | some (.versionDirective major minor) => do
      if versioned ∨ major ≠ 1 ∨ (minor ≠ 1 ∧ minor ≠ 2) then failure
      advance
      directives true fuel
    | some (.tagDirective handle lead) => do
      if (← get).handles.any (·.1 = handle) then failure
      advance
      modify fun c => { c with handles := (handle, lead) :: c.handles }
      directives versioned fuel
    | _ => return

def defaultHandles : List (String × String) := [("!", "!"), ("!!", "tag:yaml.org,2002:")]

def skipEnds : Nat → Compose Unit
  | 0 => return
  | fuel + 1 => do if ← accept .documentEnd then skipEnds fuel

def root (fuel : Nat) : Compose Node := do
  let before := (← get).tokens.length
  directives false fuel
  modify fun c => { c with handles := c.handles ++ defaultHandles }
  if ← accept .documentStart then
    if (← peek).isNone then return .empty
    else nodeUnless [.documentStart, .documentEnd] false fuel
  else if (← get).tokens.length < before then failure
  else node false fuel

/-- The one document of a text. A text without tokens has an empty root. -/
def document : Compose Node := do
  let fuel := 5 * (← get).tokens.length + 10
  if (← peek).isNone then return .empty
  let n ← root fuel
  skipEnds fuel
  if (← peek).isSome then failure
  return n

end Compose

namespace Node

def ofTokens? (tokens : List Token) : Option Node :=
  (Compose.document.run' { tokens, handles := [] })

def parse? (text : String) : Option Node := tokenize text.toList >>= ofTokens?

end Node

end ChangeFeed.Yaml
