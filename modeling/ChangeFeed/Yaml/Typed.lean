import ChangeFeed.Decimal.Double
import ChangeFeed.Decimal.Reader
import ChangeFeed.Text.Hex

namespace ChangeFeed.Yaml

def isNullWord (s : List Char) : Bool :=
  String.ofList s ∈ ["null", "Null", "NULL", "~"]

def isTruthWord (s : List Char) : Bool :=
  String.ofList s ∈ ["true", "True", "TRUE", "false", "False", "FALSE"]

def dropPlus : List Char → List Char
  | '+' :: rest => rest
  | s => s

def dropMinus : List Char → List Char
  | '-' :: rest => rest
  | s => s

def dropSign : List Char → List Char
  | '+' :: rest => rest
  | s => dropMinus s

def isZeroPadded (s : List Char) : Bool :=
  match dropSign s with
  | '0' :: d :: rest => (d :: rest).all Char.isDigit
  | _ => false

def digitsValue? (base : Nat) (s : List Char) : Option Nat :=
  if s.isEmpty then none
  else s.foldlM (fun n c => do
    let d ← Text.hexDigit? c
    if d < base then some (n * base + d) else none) 0

def magnitude? : List Char → Option Nat
  | '0' :: 'x' :: rest => digitsValue? 16 rest
  | '0' :: 'o' :: rest => digitsValue? 8 rest
  | '0' :: 'b' :: rest => digitsValue? 2 rest
  | s => if isZeroPadded s then none else digitsValue? 10 s

def natural? (s : List Char) : Option Nat := magnitude? (dropPlus s)

def isInteger (s : List Char) : Bool :=
  match s with
  | '-' :: rest => (magnitude? rest).any (· ≤ Nat.pow 2 127)
  | _ => (natural? s).any (· < Nat.pow 2 128)

def decimal? (s : List Char) : Option Decimal :=
  match Decimal.readFront s with
  | some (d, []) => some d
  | _ => none

/-- Whether a text is a number with a fraction or an exponent, or one of the words for what is no
finite number. A number that is too great for a double is none. -/
def isReal (s : List Char) : Bool :=
  String.ofList (dropPlus s) ∈ [".inf", ".Inf", ".INF"] ||
    String.ofList s ∈ ["-.inf", "-.Inf", "-.INF", ".nan", ".NaN", ".NAN"] ||
    (decimal? (dropSign s)).any fun d => d.isFinite

def isTyped (s : List Char) : Bool :=
  s.isEmpty || isNullWord s || isTruthWord s || isInteger s || isReal s

end ChangeFeed.Yaml
