import Linkage.Space.Vec3

namespace Linkage.Space

-- A place, which can be moved to, as against a displacement, which can be added.
structure Point (α : Type) where
  coordinates : Vec3 α
deriving DecidableEq, Repr

-- The displacement from the origin to a place.
def Point.toVec3 {α : Type} (point : Point α) : Vec3 α :=
  point.coordinates

-- The place at a displacement from the origin.
def Vec3.toPoint {α : Type} (v : Vec3 α) : Point α :=
  ⟨v⟩

theorem Vec3.toPoint_toVec3 {α : Type} (point : Point α) : point.toVec3.toPoint = point :=
  rfl

theorem Point.toVec3_toPoint {α : Type} (v : Vec3 α) : v.toPoint.toVec3 = v :=
  rfl

end Linkage.Space
