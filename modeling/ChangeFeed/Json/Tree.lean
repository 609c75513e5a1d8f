import ChangeFeed.Json.Basic
import ChangeFeed.Tree

namespace ChangeFeed.Json

def text? : Json → Option String
  | string s => s
  | _ => none

def flag? : Json → Option Bool
  | bool b => some b
  | _ => none

/-- A record may be an array of its values, and a choice is its name or an object with that name and
nothing under it. -/
instance : Tree Json where
  text? := text?
  natural?
    | int (.ofNat n) => some n
    | _ => none
  optional?
    | null => some none
    | t => some (some t)
  items?
    | array items => some items
    | _ => none
  members?
    | object members => some members
    | _ => none
  row?
    | array items => some items
    | _ => none
  choice?
    | string s => s
    | object [(name, null)] => name
    | _ => none

end ChangeFeed.Json
