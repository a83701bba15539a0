import Linkage.Space.Pose

namespace Linkage.Description

open Space

-- The kinds of joint that a description can name.
inductive JointKind where
  | revolute
  | continuous
  | prismatic
  | fixed
  | floating
  | planar
  | spherical
deriving DecidableEq, Repr

def JointKind.title : JointKind → String
  | .revolute => "Revolute"
  | .continuous => "Continuous"
  | .prismatic => "Prismatic"
  | .fixed => "Fixed"
  | .floating => "Floating"
  | .planar => "Planar"
  | .spherical => "Spherical"

-- Where a frame is: roll, pitch and yaw, and the position of its origin.
structure Origin (α : Type) where
  position : Vec3 α
  angles : Vec3 α
deriving DecidableEq, Repr

-- The six different entries of a moment of inertia.
structure Moments (α : Type) where
  xx : α
  xy : α
  xz : α
  yy : α
  yz : α
  zz : α
deriving DecidableEq, Repr

structure Inertial (α : Type) where
  origin : Origin α
  mass : α
  moments : Moments α
deriving DecidableEq, Repr

structure Link (α : Type) where
  name : String
  inertial : Option (Inertial α)
deriving DecidableEq, Repr

-- A joint holds the link `child` at the link `parent`.
structure Joint (α : Type) where
  name : String
  kind : JointKind
  origin : Origin α
  parent : String
  child : String
  axis : Option (Vec3 α)
deriving DecidableEq, Repr

structure Robot (α : Type) where
  links : List (Link α)
  joints : List (Joint α)
deriving DecidableEq, Repr

variable {α : Type} [Scalar α]

namespace Origin

def here : Origin α :=
  ⟨.zero, .zero⟩

def pose (origin : Origin α) : Pose α :=
  .ofRollPitchYaw origin.angles origin.position

end Origin

-- The symmetric matrix with the given entries.
def Moments.matrix (m : Moments α) : Mat3 α :=
  .ofRows m.xx m.xy m.xz m.xy m.yy m.yz m.xz m.yz m.zz

-- What a link without inertial data counts as having.
def Inertial.none : Inertial α :=
  ⟨.here, 0, ⟨0, 0, 0, 0, 0, 0⟩⟩

end Linkage.Description
