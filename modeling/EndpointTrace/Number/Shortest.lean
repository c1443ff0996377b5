import EndpointTrace.Number.Binary

/-!
# Shortest decimals

The shortest decimal of a binary number is the one with the fewest digits among those
that round to it, and of these the nearest.  On every decimal grid only the two
neighbours of the number have to be looked at: if any point of the grid rounds to the
number, one of them does.
-/

namespace EndpointTrace

/-- The value `digits · 10 ^ exponent`. -/
structure Decimal where
  digits : Nat
  exponent : Int
  deriving DecidableEq, Repr

namespace Decimal

def toRat (decimal : Decimal) : Rat :=
  decimal.digits * (10 : Rat) ^ decimal.exponent

def width (n : Nat) : Nat :=
  (Nat.toDigits 10 n).length

def exponentOf (value : Rat) : Int :=
  if 1 ≤ value then
    (width value.floor.toNat : Int) - 1
  else
    -(width ((1 / value).ceil.toNat - 1) : Int)

/-- The interval of values that round to a binary number. -/
structure Neighbourhood where
  low : Rat
  high : Rat
  closed : Bool

namespace Neighbourhood

def of (format : BinaryFormat) (magnitude : Binary) : Neighbourhood :=
  let place := (2 : Rat) ^ magnitude.exponent
  let below :=
    if 2 * magnitude.mantissa = format.bound
        ∧ format.leastExponent < magnitude.exponent then place / 4 else place / 2
  { low := magnitude.toRat - below
    high := magnitude.toRat + place / 2
    closed := magnitude.mantissa % 2 = 0 }

def contains (interval : Neighbourhood) (value : Rat) : Bool :=
  (interval.low < value && value < interval.high)
    || (interval.closed && (value == interval.low || value == interval.high))

end Neighbourhood

/-- The better of the two neighbours of a value on a decimal grid, if one of them rounds
to the same binary number. -/
def onGrid? (interval : Neighbourhood) (value : Rat) (exponent : Int) : Option Decimal :=
  let below : Decimal := ⟨(value / (10 : Rat) ^ exponent).floor.toNat, exponent⟩
  let above : Decimal := ⟨below.digits + 1, exponent⟩
  let fits (decimal : Decimal) := interval.contains decimal.toRat
  match fits below, fits above with
  | true, true =>
      let down := value - below.toRat
      let up := above.toRat - value
      if down < up then some below
      else if up < down then some above
      else if below.digits % 2 = 0 then some below
      else some above
  | true, false => some below
  | false, true => some above
  | false, false => none

def normalize (decimal : Decimal) : Decimal :=
  if divisible : decimal.digits ≠ 0 ∧ decimal.digits % 10 = 0 then
    normalize ⟨decimal.digits / 10, decimal.exponent + 1⟩
  else
    decimal
termination_by decimal.digits
decreasing_by omega

/-- The first grid, from coarse to fine, that has a decimal for the number. -/
def firstOnGrids (interval : Neighbourhood) (value : Rat) (leading : Int) :
    List Nat → Decimal
  | [] => ⟨0, 0⟩
  | more :: finer =>
      (onGrid? interval value (leading - more)).getD
        (firstOnGrids interval value leading finer)

/-- The fewest digits that suffice for every double are seventeen. -/
def shortest (format : BinaryFormat) (magnitude : Binary) : Decimal :=
  if magnitude.isZero then
    ⟨0, 0⟩
  else
    let value := magnitude.toRat
    normalize <| firstOnGrids (.of format magnitude) value (exponentOf value)
      (List.range 17)

/-!
## Digits around the point
-/

def parts (decimal : Decimal) : String × String :=
  let digits := Nat.toDigits 10 decimal.digits
  match decimal.exponent with
  | .ofNat zeros =>
      (String.ofList (if decimal.digits = 0 then ['0']
        else digits ++ List.replicate zeros '0'), "")
  | .negSucc less =>
      let places := less + 1
      let padded := List.replicate (places + 1 - digits.length) '0' ++ digits
      (String.ofList (padded.take (padded.length - places)),
        String.ofList (padded.drop (padded.length - places)))

def plain (decimal : Decimal) : String :=
  match decimal.parts with
  | (whole, "") => whole
  | (whole, fraction) => whole ++ "." ++ fraction

def pointed (decimal : Decimal) : String :=
  match decimal.parts with
  | (whole, "") => whole ++ ".0"
  | (whole, fraction) => whole ++ "." ++ fraction

def scientific (decimal : Decimal) : String :=
  let digits := Nat.toDigits 10 decimal.digits
  let exponent := decimal.exponent + (digits.length : Int) - 1
  let mantissa :=
    match digits with
    | first :: second :: rest => first :: '.' :: second :: rest
    | digits => digits
  String.ofList mantissa ++ "e" ++ toString exponent

end Decimal

end EndpointTrace
