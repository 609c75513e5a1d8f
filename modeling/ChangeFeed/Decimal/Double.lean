import ChangeFeed.Decimal.Basic

namespace ChangeFeed

structure Double where
  significand : Nat
  exponent : Int
  deriving DecidableEq

namespace Double

def minExponent : Int := -1074

def maxExponent : Int := 971

/-- A quotient rounded to the nearest whole number, of two the even one. -/
def roundDiv (n d : Nat) : Nat :=
  let q := n / d
  let r := n % d
  if 2 * r < d ∨ (2 * r = d ∧ q % 2 = 0) then q else q + 1

def scaled (n base : Nat) (e : Int) : Nat × Nat :=
  if 0 ≤ e then (n * Nat.pow base e.toNat, 1) else (n, Nat.pow base (-e).toNat)

def highest (n d : Nat) : Int :=
  let k : Int := (n.log2 : Int) - d.log2
  let (a, b) := scaled d 2 k
  if n * b < a then k - 1 else k

/-- The double nearest to a fraction, unless the fraction is too great. -/
def ofFraction (n d : Nat) : Option Double :=
  if n = 0 then some ⟨0, minExponent⟩
  else
    let exponent := max (highest n d - 52) minExponent
    let (a, b) := scaled d 2 exponent
    let significand := roundDiv (n * b) a
    let r : Double :=
      if significand = Nat.pow 2 53 then ⟨Nat.pow 2 52, exponent + 1⟩ else ⟨significand, exponent⟩
    if maxExponent < r.exponent then none else some r

def ofDecimal (d : Decimal) : Option Double :=
  if d.digits = 0 then ofFraction 0 1
  else if 310 < d.leading then none
  else if d.leading < -400 then ofFraction 0 1
  else
    let (n, m) := scaled d.digits 10 d.exponent
    ofFraction n m

def fraction (x : Double) : Nat × Nat := scaled x.significand 2 x.exponent

/-- The decimal numbers with `places` digits or one more that lie next to a fraction, below and
above it, as digits and exponent. The leading digit of the fraction has the exponent `leading`. -/
def neighbours (n d : Nat) (leading : Int) (places : Nat) : List (Nat × Int) :=
  let exponent := leading - places + 1
  let (a, b) := scaled d 10 exponent
  let below := n * b / a
  [(below, exponent), (below + 1, exponent)]

def distance (n d : Nat) (digits : Nat) (exponent : Int) : Nat :=
  let (a, b) := scaled d 10 exponent
  (n * b - digits * a) + (digits * a - n * b)

def leadingDecimal (n d : Nat) : Int :=
  let k : Int := ((Nat.toDigits 10 n).length : Int) - (Nat.toDigits 10 d).length
  let (a, b) := scaled d 10 k
  if n * b < a then k - 1 else k

def shortestAt (x : Double) (places : Nat) : Option (Nat × Int) :=
  let (n, d) := x.fraction
  let hits := (neighbours n d (leadingDecimal n d) places).filter fun c =>
    ofDecimal ⟨false, c.1, c.2⟩ = some x
  match hits with
  | [a, b] => some (if distance n d a.1 a.2 ≤ distance n d b.1 b.2 then a else b)
  | [a] => some a
  | _ => none

/-- The fewest digits that round to the double; seventeen are always enough. -/
def shortest (x : Double) : Nat × Int :=
  if x.significand = 0 then (0, 0)
  else ((List.range 17).findSome? fun i => x.shortestAt (i + 1)).getD (0, 0)

def rounded (x : Double) (places : Nat) : Nat × Int :=
  if x.significand = 0 then (0, 0)
  else
    let (n, d) := x.fraction
    let exponent := leadingDecimal n d - places + 1
    let (a, b) := scaled d 10 exponent
    ((2 * n * b + a) / (2 * a), exponent)

end Double

namespace Decimal

def isFinite (d : Decimal) : Bool := (Double.ofDecimal d).isSome

def toDouble? (d : Decimal) : Option Decimal := do
  let (digits, exponent) := (← Double.ofDecimal d).shortest
  return (⟨d.negative, digits, exponent⟩ : Decimal).normalize

def toPlaces (places : Nat) (d : Decimal) : Decimal :=
  match Double.ofDecimal d with
  | none => d
  | some x =>
    let (digits, exponent) := x.rounded places
    (⟨d.negative, digits, exponent⟩ : Decimal).normalize

end Decimal

end ChangeFeed
