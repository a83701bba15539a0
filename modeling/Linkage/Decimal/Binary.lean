namespace Linkage.Decimal

def twoTo (exponent : Nat) : Nat :=
  Nat.pow 2 exponent

def tenTo (exponent : Nat) : Nat :=
  Nat.pow 10 exponent

-- What a binary64 number stands for. A finite one is `significand * 2 ^ exponent` with a sign,
-- which zero has as well.
inductive Binary where
  | nan
  | infinite (negative : Bool)
  | finite (negative : Bool) (significand : Nat) (exponent : Int)
deriving DecidableEq, Repr

namespace Binary

-- The fields of a binary64 pattern: a sign, eleven bits of exponent, fifty-two of fraction.
-- The leading bit of the significand is written out only by the exponent not being least.
def ofBits (bits : Nat) : Binary :=
  let negative := bits / twoTo 63 % 2 == 1
  let field : Nat := bits / twoTo 52 % twoTo 11
  let fraction : Nat := bits % twoTo 52
  if field = 2047 then
    if fraction = 0 then .infinite negative else .nan
  else if field = 0 then
    .finite negative fraction (-1074)
  else
    .finite negative (twoTo 52 + fraction) (field - 1075)

def ofFloat (x : Float) : Binary :=
  ofBits x.toBits.toNat

end Binary

-- The ratio of two natural numbers that is `significand * 2 ^ exponent`.
def numerator (significand : Nat) (exponent : Int) : Nat :=
  significand * twoTo exponent.toNat

def denominator (exponent : Int) : Nat :=
  twoTo (-exponent).toNat

end Linkage.Decimal
