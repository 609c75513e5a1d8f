namespace ChangeFeed

/-- The number `± digits * 10 ^ exponent`. -/
structure Decimal where
  negative : Bool
  digits : Nat
  exponent : Int
  deriving DecidableEq

namespace Decimal

def stripZeros : Nat → Nat → Int → Nat × Int
  | 0, digits, exponent => (digits, exponent)
  | fuel + 1, digits, exponent =>
    if digits % 10 = 0 then stripZeros fuel (digits / 10) (exponent + 1) else (digits, exponent)

/-- The canonical form. A number has no more trailing zeros than binary places. -/
def normalize (d : Decimal) : Decimal :=
  if d.digits = 0 then { d with exponent := 0 }
  else
    let (digits, exponent) := stripZeros (d.digits.log2 + 1) d.digits d.exponent
    { d with digits, exponent }

def toInt? (d : Decimal) : Option Int :=
  let n := d.normalize
  if 0 ≤ n.exponent then
    let a : Int := .ofNat (n.digits * Nat.pow 10 n.exponent.toNat)
    some (if n.negative then -a else a)
  else none

def digitText (d : Decimal) : List Char := Nat.toDigits 10 d.digits

def leading (d : Decimal) : Int := d.exponent + (d.digitText.length : Int) - 1

def positional (d : Decimal) : List Char :=
  let ds := d.digitText
  if 0 ≤ d.exponent then ds ++ List.replicate d.exponent.toNat '0' ++ ['.', '0']
  else
    let places := (-d.exponent).toNat
    if places < ds.length then
      ds.take (ds.length - places) ++ '.' :: ds.drop (ds.length - places)
    else '0' :: '.' :: List.replicate (places - ds.length) '0' ++ ds

def signed (d : Decimal) (body : List Char) : List Char :=
  if d.negative then '-' :: body else body

end Decimal

end ChangeFeed
