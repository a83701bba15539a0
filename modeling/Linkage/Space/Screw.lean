import Linkage.Space.Pose

namespace Linkage.Space

-- An instantaneous rigid motion: angular velocity, and the velocity of the point at the origin.
structure Screw (α : Type) where
  angular : Vec3 α
  linear : Vec3 α
deriving DecidableEq, Repr

namespace Screw

variable {α : Type} [Scalar α]

-- Turning at unit rate about the line through `point` along `axis`. The point itself is at rest.
def turning? (axis point : Vec3 α) : Option (Screw α) :=
  axis.direction?.map fun w => ⟨w, (w.cross point).neg⟩

-- Moving along `direction` without turning.
def sliding (direction : Vec3 α) : Screw α :=
  ⟨.zero, direction⟩

def entries (s : Screw α) : List α :=
  Mat6.joinRow s.angular s.linear

end Screw

def Mat6.mulScrew {α : Type} [Scalar α] (m : Mat6 α) (s : Screw α) : Screw α :=
  ⟨(m.angularAngular.mulVec s.angular).add (m.angularLinear.mulVec s.linear),
    (m.linearAngular.mulVec s.angular).add (m.linearLinear.mulVec s.linear)⟩

end Linkage.Space
