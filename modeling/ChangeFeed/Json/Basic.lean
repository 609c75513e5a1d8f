import ChangeFeed.Data

namespace ChangeFeed

inductive Json where
  | null
  | bool (b : Bool)
  | int (n : Int)
  /-- A number with a fraction or an exponent, or a negative zero. -/
  | otherNumber
  /-- A string, if its escapes spell whole characters. -/
  | string (s : Option String)
  | array (items : List Json)
  | object (members : List (Option String × Json))

namespace Json

mutual

def ofData : Data → Json
  | .null => null
  | .bool b => bool b
  | .int n => int n
  | .text s => string (some s)
  | .list items => array (ofItems items)
  | .record members => object (ofMembers members)

def ofItems : List Data → List Json
  | [] => []
  | d :: rest => ofData d :: ofItems rest

def ofMembers : List (String × Data) → List (Option String × Json)
  | [] => []
  | (name, d) :: rest => (some name, ofData d) :: ofMembers rest

end

end Json

end ChangeFeed
