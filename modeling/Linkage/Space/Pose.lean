import Linkage.Space.Mat6
import Linkage.Space.Quat

namespace Linkage.Space

-- A rigid transform: rotate, then move.
structure Pose (α : Type) where
  position : Vec3 α
  rotation : Quat α
deriving DecidableEq, Repr

namespace Pose

variable {α : Type} [Scalar α]

def one : Pose α :=
  ⟨.zero, .one⟩

-- The pose of a frame from its roll, pitch and yaw and the position of its origin.
def ofRollPitchYaw (angles position : Vec3 α) : Pose α :=
  ⟨position, .ofRollPitchYaw angles.x angles.y angles.z⟩

def apply (pose : Pose α) (point : Vec3 α) : Vec3 α :=
  pose.position.add (pose.rotation.rotate point)

-- The pose in `a`'s outer frame of what has pose `b` in `a`'s inner frame.
def compose (a b : Pose α) : Pose α :=
  ⟨a.apply b.position, a.rotation.mul b.rotation⟩

def inverse (pose : Pose α) : Pose α :=
  let back := pose.rotation.conjugate
  ⟨back.rotate pose.position.neg, back⟩

-- The action of a pose on screws, angular part first.
def adjoint (pose : Pose α) : Mat6 α :=
  let r := pose.rotation.toMatrix
  ⟨r, .zero, (Mat3.skew pose.position).mul r, r⟩

end Pose

end Linkage.Space
