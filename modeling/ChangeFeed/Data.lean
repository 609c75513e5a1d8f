namespace ChangeFeed

inductive Data where
  | null
  | bool (b : Bool)
  | int (n : Int)
  | text (s : String)
  | list (items : List Data)
  | record (members : List (String × Data))

namespace Data

def ofNat (n : Nat) : Data := int n

def ofTexts (l : List String) : Data := list (l.map text)

def intText : Int → List Char
  | .ofNat n => Nat.toDigits 10 n
  | .negSucc n => '-' :: Nat.toDigits 10 (n + 1)

end Data

end ChangeFeed
