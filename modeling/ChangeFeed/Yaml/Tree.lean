import ChangeFeed.Tree
import ChangeFeed.Yaml.Node
import ChangeFeed.Yaml.Typed

namespace ChangeFeed.Yaml.Node

def nullTag : String := "tag:yaml.org,2002:null"

def isNothing (plain : Bool) (text : String) : Bool := plain && (text = "" || isNullWord text.toList)

def text? : Node → Option String
  | scalar _ _ s => some s
  | _ => none

def tagName (tag : String) : String :=
  match tag.toList with
  | '!' :: c :: rest => String.ofList (c :: rest)
  | _ => tag

/-- Every scalar is a text where a text is asked for; only plain scalars are numbers. An empty plain
scalar is an empty list or record as well, and a choice is its name, or a tag with that name on nothing.
-/
instance : Tree Node where
  text? := text?
  natural?
    | scalar _ true s => Yaml.natural? s.toList
    | _ => none
  optional?
    | scalar none plain s => if isNothing plain s then some none else some (some (scalar none plain s))
    | scalar (some tag) plain s =>
      if plain && tag = nullTag then (if isNullWord s.toList then some none else none)
      else some (some (scalar (some tag) plain s))
    | t => some (some t)
  items?
    | list items => some items
    | scalar _ true "" => some []
    | _ => none
  members?
    | map members => some (members.map fun m => (m.1.text?, m.2))
    | scalar _ true "" => some []
    | _ => none
  row? _ := none
  choice?
    | scalar none _ s => some s
    | scalar (some tag) plain s => if isNothing plain s then some (tagName tag) else none
    | _ => none

end ChangeFeed.Yaml.Node
