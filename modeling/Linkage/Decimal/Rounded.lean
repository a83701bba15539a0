import Linkage.Decimal.Binary

namespace Linkage.Decimal

-- The whole number nearest to a ratio. Halfway between two, it is the even one.
def nearest (num den : Nat) : Nat :=
  let q := num / den
  let r := num % den
  if 2 * r < den then q
  else if den < 2 * r then q + 1
  else if q % 2 = 0 then q
  else q + 1

def digits (n : Nat) : String :=
  String.ofList (Nat.toDigits 10 n)

def digitsPadded (width n : Nat) : String :=
  String.ofList ((digits n).toList.leftpad width '0')

def signed (negative : Bool) (text : String) : String :=
  if negative then "-" ++ text else text

def special (negative : Bool) : String :=
  signed negative "inf"

-- A whole number of units in the last place, with the point put in.
def withPoint (places units : Nat) : String :=
  let whole := digits (units / tenTo places)
  if places = 0 then whole
  else whole ++ "." ++ digitsPadded places (units % tenTo places)

-- A number to a set count of places after the point. The exact binary value is rounded, once.
def fixed (places : Nat) (x : Float) : String :=
  match Binary.ofFloat x with
  | .nan => "NaN"
  | .infinite negative => special negative
  | .finite negative significand exponent =>
      signed negative <| withPoint places <|
        nearest (numerator significand exponent * tenTo places) (denominator exponent)

-- How many decimal digits a number has; none for zero.
def digitCount (n : Nat) : Nat :=
  if n = 0 then 0 else (Nat.toDigits 10 n).length

-- The power of ten at or just below a positive ratio.
def magnitude (num den : Nat) : Int :=
  if den ≤ num then digitCount (num / den) - 1
  else -digitCount ((den + num - 1) / num - 1)

-- A positive ratio in units of the last of `places + 1` significant digits, its leading power
-- of ten being `power`.
def significantUnits (places : Nat) (num den : Nat) (power : Int) : Nat :=
  let shift := (places : Int) - power
  nearest (num * tenTo shift.toNat) (den * tenTo (-shift).toNat)

-- A number with one digit before the point and a set count after it, and a power of ten. The
-- exact binary value is rounded, once; rounding up to the next power of ten moves the point.
def scientific (places : Nat) (x : Float) : String :=
  match Binary.ofFloat x with
  | .nan => "NaN"
  | .infinite negative => special negative
  | .finite negative significand exponent =>
      signed negative <|
        if significand = 0 then withPoint places 0 ++ "e0"
        else
          let num := numerator significand exponent
          let den := denominator exponent
          let power := magnitude num den
          let units := significantUnits places num den power
          if units = tenTo (places + 1) then withPoint places (tenTo places) ++ s!"e{power + 1}"
          else withPoint places units ++ s!"e{power}"

end Linkage.Decimal
