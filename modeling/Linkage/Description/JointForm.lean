import Linkage.Description.Check
import Linkage.Description.Frame

namespace Linkage.Description

open Markup Space

namespace JointKind

def choices : List (String × JointKind) :=
  [("revolute", revolute), ("continuous", continuous), ("prismatic", prismatic),
    ("fixed", fixed), ("floating", floating), ("planar", planar), ("spherical", spherical)]

end JointKind

def amount (label : String) : Check :=
  .allowed label (Part.plain number)

def checkLimit : Node → Reading Unit :=
  Check.all [amount "lower", amount "upper", amount "effort",
    .needed "velocity" (Part.plain number)]

def checkCalibration : Node → Reading Unit :=
  Check.all [amount "rising", amount "falling"]

def checkDynamics : Node → Reading Unit :=
  Check.all [amount "damping", amount "friction"]

def checkMimic : Node → Reading Unit :=
  Check.all [.needed "joint" text, amount "multiplier", amount "offset"]

def checkSafety : Node → Reading Unit :=
  Check.all [amount "soft_lower_limit", amount "soft_upper_limit", amount "k_position",
    .needed "k_velocity" (Part.plain number)]

inductive JointField where
  | name
  | kind
  | origin
  | parent
  | child
  | axis
  | limit
  | calibration
  | dynamics
  | mimic
  | safety
deriving DecidableEq, Repr

namespace JointField

abbrev Value : JointField → Type
  | name => String
  | kind => JointKind
  | origin => Origin Float
  | parent => String
  | child => String
  | axis => Vec3 Float
  | _ => Unit

def form : Form JointField Value where
  fields := [name, kind, origin, parent, child, axis, limit, calibration, dynamics, mimic, safety]
  label
    | name => "name"
    | kind => "type"
    | origin => "origin"
    | parent => "parent"
    | child => "child"
    | axis => "axis"
    | limit => "limit"
    | calibration => "calibration"
    | dynamics => "dynamics"
    | mimic => "mimic"
    | safety => "safety_controller"
  read
    | name => text
    | kind => Part.choice JointKind.choices
    | origin => originPart
    | parent => Part.compound "LinkName" (readSole "link" text)
    | child => Part.compound "LinkName" (readSole "link" text)
    | axis => Part.compound "Axis" (readSole "xyz" (Part.plain triple))
    | limit => Part.compound "JointLimit" checkLimit
    | calibration => Part.compound "Calibration" checkCalibration
    | dynamics => Part.compound "Dynamics" checkDynamics
    | mimic => Part.compound "Mimic" checkMimic
    | safety => Part.compound "SafetyController" checkSafety
  join? _ := none

end JointField

def readJoint (node : Node) : Reading (Joint Float) := do
  let form := JointField.form
  let filled ← form.readAll node
  let name ← form.require filled .name
  let kind ← form.require filled .kind
  let parent ← form.require filled .parent
  let child ← form.require filled .child
  return ⟨name, kind, (filled .origin).getD .here, parent, child, filled .axis⟩

end Linkage.Description
