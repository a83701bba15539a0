import Linkage.Space.Screw

namespace Linkage.Body

open Space

-- How a joint with one degree of freedom moves what it carries.
inductive Motion where
  | turning
  | sliding
deriving DecidableEq, Repr

def Motion.title : Motion → String
  | turning => "Revolute"
  | sliding => "Prismatic"

-- One rigid body and the screw of the joint that moves it. The inertia is taken about the center
-- of mass and the screw is given there too, both in axes of the center of mass frame.
structure Rigid (α : Type) where
  motion : Motion
  mass : α
  center : Pose α
  inertia : Mat3 α
  screw : Screw α
deriving DecidableEq, Repr

namespace Rigid

variable {α : Type} [Scalar α]

-- The inertia that turns a velocity at the center of mass into a momentum there.
def inertiaAtCenter (body : Rigid α) : Mat6 α :=
  ⟨body.inertia, .zero, .zero, .diagonal body.mass⟩

-- The same inertia for velocities at the origin of the link frame: they are first carried to
-- the center of mass, and the momentum is carried back by the transpose.
def inertiaAtLink (body : Rigid α) : Mat6 α :=
  let carry := body.center.inverse.adjoint
  (carry.transpose.mul body.inertiaAtCenter).mul carry

end Rigid

end Linkage.Body
