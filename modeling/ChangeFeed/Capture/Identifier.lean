import ChangeFeed.LogModel

namespace ChangeFeed

namespace Identifier

def isStart (c : Char) : Bool := c.isAlpha || c == '_'

def isPart (c : Char) : Bool := c.isAlphanum || c == '_'

def validChars : List Char → Bool
  | [] => false
  | c :: rest => isStart c && rest.all isPart

/-- A letter or underscore, then letters, digits and underscores, all of them ASCII. Only such names get
into SQL text, where they stand without quotes. -/
def valid (name : String) : Bool := validChars name.toList

def check (name : String) : Except ModelError Unit :=
  if valid name then .ok () else .error (.notIdentifier name)

end Identifier

namespace LogModel

def names (m : LogModel) : List String :=
  [m.logTable, m.watchedTable, m.sequenceColumn, m.eventColumn] ++
    m.columnPairs.flatMap fun c => [c.log, c.watched]

def validateNames (m : LogModel) : Except ModelError Unit := do
  m.validate
  m.names.forM Identifier.check

end LogModel

end ChangeFeed
