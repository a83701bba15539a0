import Linkage.Decimal.Rounded

namespace Linkage.Decimal

-- A number as it is written: a sign, the digits with the point left out, and the power of ten
-- that puts it back.
inductive Numeral where
  | nan
  | infinity (negative : Bool)
  | number (negative : Bool) (digits : Nat) (power : Int)
deriving DecidableEq, Repr

namespace Numeral

def isDigit (c : Char) : Bool :=
  '0' ≤ c && c ≤ '9'

def value (ds : List Char) : Nat :=
  ds.foldl (fun n c => 10 * n + (c.toNat - '0'.toNat)) 0

-- An optional sign, and what follows it.
def takeSign : List Char → Bool × List Char
  | '-' :: rest => (true, rest)
  | '+' :: rest => (false, rest)
  | rest => (false, rest)

-- The end of a numeral: nothing, or a power of ten.
def power? : List Char → Option Int
  | [] => some 0
  | c :: rest =>
      if c = 'e' ∨ c = 'E' then
        let (negative, ds) := takeSign rest
        if ds.isEmpty || !ds.all isDigit then none
        else some (if negative then -(value ds) else value ds)
      else none

-- Digits with at most one point among or beside them, then an optional power of ten. A point
-- alone is no numeral.
def unsigned? (negative : Bool) (text : List Char) : Option Numeral :=
  let whole := text.takeWhile isDigit
  let afterWhole := text.dropWhile isDigit
  let (fraction, rest) := match afterWhole with
    | '.' :: more => (more.takeWhile isDigit, more.dropWhile isDigit)
    | other => ([], other)
  if whole.isEmpty && fraction.isEmpty then none
  else (power? rest).map fun p => .number negative (value (whole ++ fraction)) (p - fraction.length)

-- Numbers, and the words for infinity and for what is no number, in letters of either case.
def ofText? (text : List Char) : Option Numeral :=
  let (negative, body) := takeSign text
  match body.map Char.toLower with
  | ['n', 'a', 'n'] => some .nan
  | ['i', 'n', 'f'] => some (.infinity negative)
  | ['i', 'n', 'f', 'i', 'n', 'i', 't', 'y'] => some (.infinity negative)
  | _ => unsigned? negative body

-- The nearest binary64 number. Beyond 10 ^ 310 and below 10 ^ -330 that is infinity and zero,
-- whatever the digits are, so the power of ten that has to be formed stays small.
def magnitudeToFloat (digits : Nat) (power : Int) : Float :=
  let leading := digitCount digits + power
  if digits = 0 ∨ leading < -330 then 0.0
  else if 310 < leading then 1.0 / 0.0
  else Float.ofScientific digits (power < 0) power.natAbs

def toFloat : Numeral → Float
  | nan => 0.0 / 0.0
  | infinity negative => if negative then -(1.0 / 0.0) else 1.0 / 0.0
  | number negative digits power =>
      if negative then -(magnitudeToFloat digits power) else magnitudeToFloat digits power

end Numeral

def readFloat? (text : String) : Option Float :=
  (Numeral.ofText? text.toList).map Numeral.toFloat

end Linkage.Decimal
