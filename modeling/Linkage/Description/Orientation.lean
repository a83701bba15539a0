import Linkage.Description.Part

namespace Linkage.Description

open Markup Space

-- A whole number that fits in 32 bits, with an optional plus sign.
def smallNumber? (text : List Char) : Option Nat :=
  let body := match text with
    | '+' :: rest => rest
    | other => other
  if body.isEmpty || !body.all Decimal.Numeral.isDigit then none
  else
    let n := Decimal.Numeral.value body
    if n < Decimal.twoTo 32 then some n else none

-- The two numbers of a version, before and after its first point.
def version? (text : String) : Option (Nat × Nat) :=
  let trimmed := Text.strip Text.isBlank text.toList
  match trimmed.dropWhile (· != '.') with
  | '.' :: minor => do
      return (← smallNumber? (trimmed.takeWhile (· != '.')), ← smallNumber? minor)
  | _ => none

-- Quaternions can be written from version 1.1 on. A version that cannot be read counts as 1.0.
def writesQuaternions (root : Element) : Bool :=
  match root.plainAttribute? "version" >>= version? with
  | some (major, minor) => 1 < major || (major == 1 && 1 ≤ minor)
  | none => false

-- Roll, pitch and yaw of a quaternion of any length but zero. Near a quarter turn of pitch, roll
-- is taken to be zero.
def rollPitchYaw (x y z w : Float) : Vec3 Float :=
  let norm := Float.sqrt (x * x + y * y + z * z + w * w)
  let (x, y, z, w) := if norm > 0 then (x / norm, y / norm, z / norm, w / norm) else (0, 0, 0, 1)
  let s := -2.0 * (x * z - w * y)
  if s ≤ -0.99999 then ⟨0, -Scalar.halfPi, 2.0 * Float.atan2 x (-y)⟩
  else if s ≥ 0.99999 then ⟨0, Scalar.halfPi, 2.0 * Float.atan2 (-x) y⟩
  else
    ⟨Float.atan2 (2.0 * (y * z + w * x)) (w * w - x * x - y * y + z * z), Float.asin s,
      Float.atan2 (2.0 * (x * y + w * z)) (w * w + x * x - y * y - z * z)⟩

-- A number written so that it reads back: seventeen digits tell binary64 numbers apart.
def writeTriple (v : Vec3 Float) : String :=
  " ".intercalate ([v.x, v.y, v.z].map (Decimal.scientific 16))

-- Exactly four numbers and no other word.
def quaternion? (text : String) : Option (Vec3 Float) :=
  match (Text.words text).mapM Decimal.readFloat? with
  | some [x, y, z, w] => some (rollPitchYaw x y z w)
  | _ => none

-- The attributes of a frame with a quaternion replaced by the angles it stands for, or left out
-- where quaternions do not count. Only names without a qualifier are looked at.
def orientAttributes (counts : Bool) (attributes : List Attribute) : Reading (List Attribute) :=
  let isQuaternion (a : Attribute) := a.name == ⟨none, "quat_xyzw"⟩
  let angles : Name := ⟨none, "rpy"⟩
  match attributes.find? isQuaternion with
  | none => pure attributes
  | some written =>
      if !counts then pure (attributes.filter (!isQuaternion ·))
      else if attributes.any fun a => a.name == angles then throw .twoOrientations
      else
        match quaternion? written.value with
        | none => throw (.invalidQuaternion written.value)
        | some v =>
            pure (attributes.map fun a => if isQuaternion a then ⟨angles, writeTriple v⟩ else a)

mutual

-- Replaces the quaternions of all frames in an element, in the order in which they stand.
def orient (counts : Bool) : Element → Reading Element
  | ⟨name, attributes, content⟩ => do
      let replaced ←
        if name.base == "origin" then orientAttributes counts attributes else pure attributes
      return ⟨name, replaced, ← orientAll counts content⟩

def orientAll (counts : Bool) : List (Content Element) → Reading (List (Content Element))
  | [] => pure []
  | piece :: rest => do
      let first ← orientPiece counts piece
      return first :: (← orientAll counts rest)

def orientPiece (counts : Bool) : Content Element → Reading (Content Element)
  | .element child => do return .element (← orient counts child)
  | .text characters => pure (.text characters)
  | .comment characters => pure (.comment characters)
  | .instruction body => pure (.instruction body)

end

def orientDocument (root : Element) : Reading Element :=
  orient (writesQuaternions root) root

end Linkage.Description
