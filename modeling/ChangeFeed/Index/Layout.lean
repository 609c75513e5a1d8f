import ChangeFeed.Containment

namespace ChangeFeed

/-- The declared names, each list ascending and without repetition. -/
structure IndexLayout where
  keyword : List String := []
  text : List String := []
  deriving DecidableEq

namespace IndexLayout

def ofFields (keyword text : List String) : IndexLayout := ⟨sortDistinct keyword, sortDistinct text⟩

def forContainment (c : Containment) (keyword text : List String) : IndexLayout :=
  ofFields (c.idFields ++ keyword) text

/-- The name under which the engine stores a field: what is no ASCII letter or digit is an
underscore. -/
def plainName (name : String) : String :=
  String.ofList (name.toList.map fun c => if c.isAlphanum then c else '_')

def startsReserved (name : String) : Bool :=
  match (plainName name).toList with
  | [] => true
  | c :: _ => c == '_'

def check (l : IndexLayout) : List String → List String → Except LayoutError Unit
  | _, [] => .ok ()
  | earlier, name :: rest =>
    if startsReserved name then .error (.reserved name)
    else if name ∈ l.keyword ∧ name ∈ l.text then .error (.twoKinds name)
    else match earlier.find? fun e => plainName e = plainName name with
      | some e => .error (.collision e name)
      | none => l.check (name :: earlier) rest

def validate (l : IndexLayout) : Except LayoutError Unit := l.check [] (l.keyword ++ l.text)

end IndexLayout

end ChangeFeed
