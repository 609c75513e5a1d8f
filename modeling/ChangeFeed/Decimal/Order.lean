import ChangeFeed.Decimal.Basic

namespace ChangeFeed.Decimal

def ofInt (n : Int) : Decimal := ⟨n < 0, n.natAbs, 0⟩

def multiple (d : Decimal) (exponent : Int) : Int :=
  let n : Int := .ofNat (d.digits * Nat.pow 10 (d.exponent - exponent).toNat)
  if d.negative then -n else n

def add (a b : Decimal) : Decimal :=
  let exponent := min a.exponent b.exponent
  let n := a.multiple exponent + b.multiple exponent
  ⟨n < 0, n.natAbs, exponent⟩

instance : Ord Decimal where
  compare a b :=
    let exponent := min a.exponent b.exponent
    compare (a.multiple exponent) (b.multiple exponent)

end ChangeFeed.Decimal
