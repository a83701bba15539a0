import Linkage.Body.Segment
import Linkage.Description.Presence
import Linkage.Event
import Linkage.Lineage.Order

namespace Linkage.Description

open Body Space Lineage

-- Every kind of joint is taken to have one degree of freedom.
def JointKind.motion : JointKind → Motion
  | revolute => .turning
  | continuous => .turning
  | _ => .sliding

-- Whether a kind of joint is taken for what it is not.
def JointKind.isFolded : JointKind → Bool
  | revolute => false
  | continuous => false
  | prismatic => false
  | _ => true

-- Where a link sits on what holds it, and how it can move there.
structure Attachment (α : Type) where
  origin : Pose α
  axis : Vec3 α
  motion : Motion
deriving DecidableEq, Repr

variable {α : Type} [Scalar α]

-- A link that nothing holds turns about z where it is.
def Attachment.root : Attachment α :=
  ⟨.one, .unitZ, .turning⟩

-- The axis of a joint. One that was not written is z, but x where another joint of the same name
-- has a written one.
def Joint.axisOr (joint : Joint α) (presence : Presence) : Vec3 α :=
  if presence.axis.contains joint.name then joint.axis.getD .unitX else .unitZ

def Joint.attachment (joint : Joint α) (presence : Presence) : Attachment α :=
  ⟨joint.origin.pose, joint.axisOr presence, joint.kind.motion⟩

-- A body with inertial data, attached somewhere.
def Inertial.segment? (inertial : Inertial α) (attachment : Attachment α) : Option (Segment α) :=
  Segment.make? attachment.origin attachment.axis attachment.motion inertial.mass
    inertial.origin.pose inertial.moments.matrix

namespace Robot

-- The joint that holds a link.
def jointAbove? (robot : Robot α) (link : String) : Option (Joint α) :=
  robot.joints.find? fun joint => joint.child == link

def attachment (robot : Robot α) (presence : Presence) (link : Link α) : Attachment α :=
  match robot.jointAbove? link.name with
  | some joint => joint.attachment presence
  | none => .root

def segment? (robot : Robot α) (presence : Presence) (link : Link α) : Option (Segment α) :=
  (link.inertial.getD .none).segment? (robot.attachment presence link)

def parentOf (robot : Robot α) (link : Link α) : Option String :=
  (robot.jointAbove? link.name).map Joint.parent

def warnings (robot : Robot α) (link : Link α) : List Event :=
  match robot.jointAbove? link.name with
  | some joint => if joint.kind.isFolded then [.folded joint.name joint.kind] else []
  | none => []

-- Who holds whom, in the order of the joints.
def pairs (robot : Robot α) : List (String × String) :=
  robot.joints.map fun joint => (joint.child, joint.parent)

-- The links by distance from the root. No link may have two parents or be declared twice.
def order (robot : Robot α) (pairs : List (String × String)) :
    Except Failure (List (List String)) :=
  match firstRepeat? [] (robot.joints.map Joint.child) with
  | some child => .error (.multipleParents child)
  | none =>
      let names := robot.links.map Link.name
      match firstRepeat? [] names with
      | some name => .error (.duplicateLink name)
      | none => Kinship.order ⟨names, pairs⟩

end Robot

end Linkage.Description
