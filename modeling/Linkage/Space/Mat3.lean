import Linkage.Space.Vec3

namespace Linkage.Space

-- A three by three matrix, given by its rows.
structure Mat3 (α : Type) where
  first : Vec3 α
  second : Vec3 α
  third : Vec3 α
deriving DecidableEq, Repr

namespace Mat3

variable {α : Type} [Scalar α]

def ofRows (a b c d e f g h i : α) : Mat3 α :=
  ⟨⟨a, b, c⟩, ⟨d, e, f⟩, ⟨g, h, i⟩⟩

def entries (m : Mat3 α) : List α :=
  [m.first.x, m.first.y, m.first.z, m.second.x, m.second.y, m.second.z,
    m.third.x, m.third.y, m.third.z]

def zero : Mat3 α :=
  ⟨.zero, .zero, .zero⟩

def diagonal (d : α) : Mat3 α :=
  ofRows d 0 0 0 d 0 0 0 d

def transpose (m : Mat3 α) : Mat3 α :=
  ⟨⟨m.first.x, m.second.x, m.third.x⟩,
    ⟨m.first.y, m.second.y, m.third.y⟩,
    ⟨m.first.z, m.second.z, m.third.z⟩⟩

def mulVec (m : Mat3 α) (v : Vec3 α) : Vec3 α :=
  ⟨m.first.dot v, m.second.dot v, m.third.dot v⟩

-- Every product is formed and the columns of the left factor are gone through in order, so that
-- a zero meeting an infinity is seen.
def mul (a b : Mat3 α) : Mat3 α :=
  let t := b.transpose
  ⟨t.mulVec a.first, t.mulVec a.second, t.mulVec a.third⟩

-- One row of `total + a * b`, each product added to what is already there.
def accumulateRow (total row : Vec3 α) (b : Mat3 α) : Vec3 α :=
  let t := b.transpose
  ⟨total.x + row.x * t.first.x + row.y * t.first.y + row.z * t.first.z,
    total.y + row.x * t.second.x + row.y * t.second.y + row.z * t.second.z,
    total.z + row.x * t.third.x + row.y * t.third.y + row.z * t.third.z⟩

def accumulate (total a b : Mat3 α) : Mat3 α :=
  ⟨accumulateRow total.first a.first b, accumulateRow total.second a.second b,
    accumulateRow total.third a.third b⟩

-- The matrix whose product with a vector is the cross product by `v` from the left.
def skew (v : Vec3 α) : Mat3 α :=
  ofRows 0 (-v.z) v.y v.z 0 (-v.x) (-v.y) v.x 0

end Mat3

end Linkage.Space
