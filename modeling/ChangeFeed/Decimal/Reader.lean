import ChangeFeed.Decimal.Basic

namespace ChangeFeed.Decimal

/-- An exponent at the front, and what follows it. Without digits it is no exponent. -/
def readExponent (cs : List Char) : Int × List Char :=
  match cs with
  | e :: rest =>
    if e = 'e' ∨ e = 'E' then
      let (negative, rest) := match rest with
        | '-' :: rest => (true, rest)
        | '+' :: rest => (false, rest)
        | _ => (false, rest)
      let digits := rest.takeWhile Char.isDigit
      if digits.isEmpty then (0, cs)
      else
        let n : Int := Nat.ofDigitChars 10 digits 0
        (if negative then -n else n, rest.dropWhile Char.isDigit)
    else (0, cs)
  | [] => (0, [])

def readFront (cs : List Char) : Option (Decimal × List Char) :=
  let whole := cs.takeWhile Char.isDigit
  let rest := cs.dropWhile Char.isDigit
  let (places, rest) := match rest with
    | '.' :: rest => (rest.takeWhile Char.isDigit, rest.dropWhile Char.isDigit)
    | _ => ([], rest)
  if whole.isEmpty && places.isEmpty then none
  else
    let (exponent, rest) := readExponent rest
    some (⟨false, Nat.ofDigitChars 10 (whole ++ places) 0, exponent - places.length⟩, rest)

def readSigned (cs : List Char) : Option (Decimal × List Char) :=
  match cs with
  | '-' :: rest => (readFront rest).map fun r => ({ r.1 with negative := true }, r.2)
  | '+' :: rest => readFront rest
  | _ => readFront cs

end ChangeFeed.Decimal
