import Linkage.Description.JointForm
import Linkage.Description.LinkForm

namespace Linkage.Description

open Markup

-- The child elements of one of some names, in their order.
def childrenNamed (element : Element) (names : List String) : List Element :=
  element.children.filter fun child => names.contains child.name.base

-- A link with what it may hold: what can be seen and the inertial data as they come, then what
-- can be touched.
def arrangeLink (link : Element) : Element :=
  let kept := childrenNamed link ["visual", "inertial"] ++ childrenNamed link ["collision"]
  { link with content := kept.map .element }

-- A robot with what it may hold: its links, its joints and its materials, each as they come.
def arrangeRobot (robot : Element) : Element :=
  let links := (childrenNamed robot ["link"]).map arrangeLink
  let kept := links ++ childrenNamed robot ["joint"] ++ childrenNamed robot ["material"]
  { robot with content := kept.map .element }

inductive RobotField where
  | name
  | links
  | joints
  | materials
deriving DecidableEq, Repr

namespace RobotField

abbrev Value : RobotField → Type
  | name => String
  | links => List (Link Float)
  | joints => List (Joint Float)
  | materials => List Unit

def form : Form RobotField Value where
  fields := [name, links, joints, materials]
  label
    | name => "name"
    | links => "link"
    | joints => "joint"
    | materials => "material"
  read
    | name => text
    | links => Part.listed readLink
    | joints => Part.listed readJoint
    | materials => Part.listed checkMaterial
  join?
    | name => none
    | links => some (· ++ ·)
    | joints => some (· ++ ·)
    | materials => some (· ++ ·)

end RobotField

def readRobot (element : Element) : Reading (Robot Float) :=
  match Node.ofElement? .outermost (arrangeRobot element) with
  | none => throw .malformed
  | some node => do
      let filled ← RobotField.form.readAll node
      return ⟨(filled .links).getD [], (filled .joints).getD []⟩

end Linkage.Description
