/-!
# Binary numbers of bounded precision

A magnitude is a whole number of places, each worth a power of two.  A format bounds
the places; rounding into it goes to the nearest magnitude, and from the middle
between two to the one with an even mantissa.
-/

namespace EndpointTrace

structure Binary where
  mantissa : Nat
  exponent : Int
  deriving DecidableEq, Repr

structure BinaryFormat where
  precision : Nat
  leastExponent : Int
  greatestExponent : Int
  deriving DecidableEq, Repr

namespace Binary

def toRat (magnitude : Binary) : Rat :=
  magnitude.mantissa * (2 : Rat) ^ magnitude.exponent

def isZero (magnitude : Binary) : Bool :=
  magnitude.mantissa == 0

def exponentOf (value : Rat) : Int :=
  let guess : Int := (Nat.log2 value.num.toNat : Int) - (Nat.log2 value.den : Int)
  if (2 : Rat) ^ guess ≤ value then guess else guess - 1

/-- The nearest whole number, the even one of two that are equally near. -/
def nearest (value : Rat) : Nat :=
  let below := value.floor.toNat
  let excess := value - below
  if excess < 1 / 2 then below
  else if 1 / 2 < excess then below + 1
  else if below % 2 = 0 then below
  else below + 1

end Binary

namespace BinaryFormat

def single : BinaryFormat := ⟨24, -149, 104⟩

def double : BinaryFormat := ⟨53, -1074, 971⟩

def zero (format : BinaryFormat) : Binary :=
  ⟨0, format.leastExponent⟩

def bound (format : BinaryFormat) : Nat :=
  1 <<< format.precision

def round? (format : BinaryFormat) (value : Rat) : Option Binary :=
  if value ≤ 0 then
    some format.zero
  else
    let exponent :=
      max (Binary.exponentOf value + 1 - format.precision) format.leastExponent
    let mantissa := Binary.nearest (value / (2 : Rat) ^ exponent)
    let rounded : Binary :=
      if mantissa = format.bound then
        ⟨mantissa / 2, exponent + 1⟩
      else
        ⟨mantissa, exponent⟩
    if format.greatestExponent < rounded.exponent then none else some rounded

end BinaryFormat

inductive Floating where
  | finite (negative : Bool) (magnitude : Binary)
  | infinite (negative : Bool)
  | undefined (negative : Bool)
  deriving DecidableEq, Repr

namespace Floating

/-- The nearest number of a format; what is too great for it becomes infinite. -/
def ofRat (format : BinaryFormat) (negative : Bool) (value : Rat) : Floating :=
  match format.round? value with
  | some magnitude => finite negative magnitude
  | none => infinite negative

def convert (format : BinaryFormat) : Floating → Floating
  | finite negative magnitude => ofRat format negative magnitude.toRat
  | infinite negative => infinite negative
  | undefined negative => undefined negative

end Floating

end EndpointTrace
