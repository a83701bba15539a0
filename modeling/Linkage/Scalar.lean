namespace Linkage

-- The numbers that lengths and angles are measured in. Everything geometric is stated over this
-- class, so that one set of definitions serves binary floating point and exact numbers alike.
-- Comparisons are decided and need not be total: a quantity that is not a number compares
-- false with everything.
class Scalar (α : Type) extends Zero α, One α, Add α, Sub α, Neg α, Mul α, Div α where
  sqrt : α → α
  sin : α → α
  cos : α → α
  asin : α → α
  atan2 : α → α → α
  halfPi : α
  -- A direction whose length does not exceed this counts as having no length.
  epsilon : α
  le : α → α → Bool
  lt : α → α → Bool

namespace Scalar

variable {α : Type} [Scalar α]

def half (x : α) : α :=
  x / (1 + 1)

def twice (x : α) : α :=
  x + x

end Scalar

instance : Scalar Float where
  zero := 0.0
  one := 1.0
  sqrt := Float.sqrt
  sin := Float.sin
  cos := Float.cos
  asin := Float.asin
  atan2 := Float.atan2
  halfPi := 1.5707963267948966
  -- The distance from 1 to the next larger binary64 number.
  epsilon := 2.220446049250313e-16
  le x y := x ≤ y
  lt x y := x < y

end Linkage
