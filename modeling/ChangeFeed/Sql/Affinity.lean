import ChangeFeed.Decimal.Order
import ChangeFeed.Decimal.Reader
import ChangeFeed.Sql.Value

namespace ChangeFeed.Sql

inductive Affinity where
  | numeric
  | real
  | text
  | none
  deriving DecidableEq

namespace Value

def ofNumber (d : Decimal) : Option Value :=
  if 20 < d.leading then ofDecimal d
  else match d.toInt? with
    | some n =>
      if Int64.minValue.toInt ≤ n ∧ n ≤ Int64.maxValue.toInt then some (integer (.ofInt n))
      else ofDecimal d
    | none => ofDecimal d

def isTextBlank (c : Char) : Bool := c = ' ' || ('\t' ≤ c && c ≤ '\r')

def numberOfText? (s : String) : Option Value :=
  match Decimal.readSigned (s.toList.dropWhile isTextBlank) with
  | some (d, rest) => if rest.all isTextBlank then ofNumber d else none
  | none => none

/-- A double that is an integer of 64 bits becomes that integer, except at the ends of the range. -/
def wholeOfReal (d : Decimal) : Value :=
  match d.toInt? with
  | some n =>
    if Int64.minValue.toInt < n ∧ n < Int64.maxValue.toInt then integer (.ofInt n) else real d
  | none => real d

/-- The text of a double, with fifteen digits and at least one place. -/
def realAsText (x : Decimal) : String :=
  let d := x.toPlaces 15
  let d := { d with negative := d.negative && d.digits ≠ 0 }
  let body :=
    if d.digits = 0 ∨ (-4 ≤ d.leading ∧ d.leading < 15) then d.positional
    else
      let mantissa := match d.digitText with
        | c :: [] => [c, '.', '0']
        | c :: cs => c :: '.' :: cs
        | [] => []
      let places := Nat.toDigits 10 d.leading.natAbs
      let padded := if places.length < 2 then '0' :: places else places
      mantissa ++ 'e' :: (if d.leading < 0 then '-' else '+') :: padded
  String.ofList (d.signed body)

/-- A value that is one more. What is no number counts as zero, or as the number at its front. -/
def plusOne : Value → Value
  | null => null
  | integer n => (ofNumber ((Decimal.ofInt n.toInt).add (.ofInt 1))).getD null
  | real d => (ofDecimal (d.add (.ofInt 1))).getD (real d)
  | text s =>
    match Decimal.readSigned (s.toList.dropWhile isTextBlank) with
    | some (d, _) => (ofNumber (d.add (.ofInt 1))).getD null
    | none => integer 1
  | blob _ => integer 1

instance : Ord Value where
  compare
    | null, null => .eq
    | null, _ => .lt
    | _, null => .gt
    | integer a, integer b => compare a b
    | integer a, real b => compare (Decimal.ofInt a.toInt) b
    | real a, integer b => compare a (Decimal.ofInt b.toInt)
    | real a, real b => compare a b
    | integer _, _ => .lt
    | real _, _ => .lt
    | _, integer _ => .gt
    | _, real _ => .gt
    | text a, text b => compare a b
    | text _, blob _ => .lt
    | blob _, text _ => .gt
    | blob a, blob b => compare (a.map (·.toNat)) (b.map (·.toNat))

/-- Whether two values are equal for a condition. Nothing is equal to nothing. -/
def meets (a b : Value) : Bool := a ≠ null && b ≠ null && compare a b == .eq

end Value

namespace Affinity

def ofDeclaration (type : String) : Affinity :=
  let s := type.toUpper
  let has (w : String) : Bool := (s.splitOn w).length ≠ 1
  if has "INT" then numeric
  else if has "CHAR" || has "CLOB" || has "TEXT" then text
  else if s = "" || has "BLOB" then none
  else if has "REAL" || has "FLOA" || has "DOUB" then real
  else numeric

open Value in
def apply : Affinity → Value → Value
  | .numeric, .text s => (numberOfText? s).getD (.text s)
  | .numeric, .real d => wholeOfReal d
  | .real, .integer n => (ofDecimal (.ofInt n.toInt)).getD (.integer n)
  | .real, .text s =>
    match numberOfText? s with
    | some (.integer n) => (ofDecimal (.ofInt n.toInt)).getD (.integer n)
    | some v => v
    | .none => .text s
  | .text, .integer n => .text (toString n)
  | .text, .real d => .text (realAsText d)
  | _, v => v

end Affinity

end ChangeFeed.Sql
