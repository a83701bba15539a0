import Linkage.Body.Rigid

namespace Linkage.Body

open Space

-- A body with the joint that attaches it to its parent: where the joint sits at rest, seen from
-- the parent link, and the axis in the link frame.
structure Segment (α : Type) where
  body : Rigid α
  origin : Pose α
  axis : Vec3 α
deriving DecidableEq, Repr

namespace Segment

variable {α : Type} [Scalar α]

-- The screw of a joint through the origin of the link frame, seen from the center of mass. The
-- axis is turned into that frame, and a turning joint passes through where the link origin is.
def screwAtCenter? (motion : Motion) (axis : Vec3 α) (center : Pose α) : Option (Screw α) :=
  let link := center.inverse
  let direction := link.rotation.rotate axis
  match motion with
  | .turning => Screw.turning? direction link.position
  | .sliding => some (Screw.sliding direction)

-- There is no segment without a direction to turn or slide along.
def make? (origin : Pose α) (axis : Vec3 α) (motion : Motion) (mass : α) (center : Pose α)
    (inertia : Mat3 α) : Option (Segment α) :=
  match axis.strictDirection? with
  | none => none
  | some direction =>
      (screwAtCenter? motion direction center).map fun screw =>
        ⟨⟨motion, mass, center, inertia, screw⟩, origin, direction⟩

-- The motion of the joint away from rest.
def displacement (segment : Segment α) (q : α) : Pose α :=
  match segment.body.motion with
  | .turning => ⟨.zero, .ofAxisAngle segment.axis q⟩
  | .sliding => ⟨segment.axis.scale q, .one⟩

-- The link frame seen from the parent link at a joint coordinate.
def transform (segment : Segment α) (q : α) : Pose α :=
  segment.origin.compose (segment.displacement q)

end Segment

end Linkage.Body
