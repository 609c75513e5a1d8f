import ChangeFeed.Decimal.Double

namespace ChangeFeed.Sql

inductive Value where
  | null
  | integer (n : Int64)
  | real (x : Decimal)
  | text (s : String)
  | blob (bytes : List UInt8)
  deriving DecidableEq

namespace Value

def ofDecimal (d : Decimal) : Option Value := real <$> d.toDouble?

/-- Positional from a ten-thousandth up to below 10^16, with an exponent elsewhere. -/
def realText (x : Decimal) : String :=
  let d := x.normalize
  let body :=
    if d.digits = 0 ∨ (-4 ≤ d.leading ∧ d.leading < 16) then d.positional
    else
      let rest := match d.digitText with
        | c :: [] => [c]
        | c :: cs => c :: '.' :: cs
        | [] => []
      rest ++ 'e' :: (toString d.leading).toList
  String.ofList (d.signed body)

def describe : Value → String
  | null => "Null"
  | integer n => s!"Integer({n})"
  | real x => s!"Real({realText x})"
  | text s => "Text(" ++ s.quote ++ ")"
  | blob bytes =>
    let items := ", ".intercalate (bytes.map toString)
    s!"Blob([{items}])"

def className : Value → String
  | null => "Null"
  | integer _ => "Integer"
  | real _ => "Real"
  | text _ => "Text"
  | blob _ => "Blob"

end Value

end ChangeFeed.Sql
