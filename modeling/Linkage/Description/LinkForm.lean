import Linkage.Description.Appearance

namespace Linkage.Description

open Markup

def momentLabels : List String :=
  ["ixx", "ixy", "ixz", "iyy", "iyz", "izz"]

def readMoments (node : Node) : Reading (Moments Float) := do
  let form := Form.uniform momentLabels fun _ => Part.plain number
  let filled ← form.readAll node
  return ⟨← form.require filled "ixx", ← form.require filled "ixy", ← form.require filled "ixz",
    ← form.require filled "iyy", ← form.require filled "iyz", ← form.require filled "izz"⟩

inductive InertialField where
  | origin
  | mass
  | inertia
deriving DecidableEq, Repr

namespace InertialField

abbrev Value : InertialField → Type
  | origin => Origin Float
  | mass => Float
  | inertia => Moments Float

def form : Form InertialField Value where
  fields := [origin, mass, inertia]
  label
    | origin => "origin"
    | mass => "mass"
    | inertia => "inertia"
  read
    | origin => originPart
    | mass => Part.compound "Mass" (readSole "value" (Part.plain number))
    | inertia => Part.compound "Inertia" readMoments
  join? _ := none

end InertialField

def readInertial (node : Node) : Reading (Inertial Float) := do
  let form := InertialField.form
  let filled ← form.readAll node
  let mass ← form.require filled .mass
  let moments ← form.require filled .inertia
  return ⟨(filled .origin).getD .here, mass, moments⟩

inductive LinkField where
  | name
  | inertial
  | visual
  | collision
deriving DecidableEq, Repr

namespace LinkField

abbrev Value : LinkField → Type
  | name => String
  | inertial => Inertial Float
  | visual => List Unit
  | collision => List Unit

def form : Form LinkField Value where
  fields := [name, inertial, visual, collision]
  label
    | name => "name"
    | inertial => "inertial"
    | visual => "visual"
    | collision => "collision"
  read
    | name => text
    | inertial => Part.compound "Inertial" readInertial
    | visual => Part.listed checkVisual
    | collision => Part.listed checkCollision
  join?
    | visual => some (· ++ ·)
    | collision => some (· ++ ·)
    | _ => none

end LinkField

def readLink (node : Node) : Reading (Link Float) := do
  let form := LinkField.form
  let filled ← form.readAll node
  return ⟨← form.require filled .name, filled .inertial⟩

end Linkage.Description
