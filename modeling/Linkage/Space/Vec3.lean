import Linkage.Scalar

namespace Linkage.Space

structure Vec3 (α : Type) where
  x : α
  y : α
  z : α
deriving DecidableEq, Repr

namespace Vec3

variable {α : Type} [Scalar α]

def zero : Vec3 α :=
  ⟨0, 0, 0⟩

def unitX : Vec3 α :=
  ⟨1, 0, 0⟩

def unitZ : Vec3 α :=
  ⟨0, 0, 1⟩

def add (u v : Vec3 α) : Vec3 α :=
  ⟨u.x + v.x, u.y + v.y, u.z + v.z⟩

def neg (v : Vec3 α) : Vec3 α :=
  ⟨-v.x, -v.y, -v.z⟩

def scale (v : Vec3 α) (factor : α) : Vec3 α :=
  ⟨v.x * factor, v.y * factor, v.z * factor⟩

def shrink (v : Vec3 α) (divisor : α) : Vec3 α :=
  ⟨v.x / divisor, v.y / divisor, v.z / divisor⟩

def dot (u v : Vec3 α) : α :=
  u.x * v.x + u.y * v.y + u.z * v.z

def cross (u v : Vec3 α) : Vec3 α :=
  ⟨u.y * v.z - u.z * v.y, u.z * v.x - u.x * v.z, u.x * v.y - u.y * v.x⟩

-- The squares are not rescaled first: a long enough vector has an overflowing length.
def norm (v : Vec3 α) : α :=
  Scalar.sqrt (v.dot v)

-- The direction of a vector, refused only when its length is known to be too small. A vector
-- whose length is not a number is let through, since no comparison holds of it.
def direction? (v : Vec3 α) : Option (Vec3 α) :=
  if Scalar.le v.norm Scalar.epsilon then none else some (v.shrink v.norm)

-- The direction of a vector, accepted only when its squared length is known to be large enough.
-- A vector whose length is not a number is refused.
def strictDirection? (v : Vec3 α) : Option (Vec3 α) :=
  if Scalar.lt (Scalar.epsilon * Scalar.epsilon) (v.dot v) then some (v.shrink v.norm) else none

end Vec3

end Linkage.Space
