import Linkage.Space.Mat3

namespace Linkage.Space

-- A rotation as a quaternion, scalar part first. Products are not renormalised: unit quaternions
-- are closed under everything below in exact arithmetic.
structure Quat (α : Type) where
  w : α
  i : α
  j : α
  k : α
deriving DecidableEq, Repr

namespace Quat

variable {α : Type} [Scalar α]

def one : Quat α :=
  ⟨1, 0, 0, 0⟩

def imaginary (q : Quat α) : Vec3 α :=
  ⟨q.i, q.j, q.k⟩

def conjugate (q : Quat α) : Quat α :=
  ⟨q.w, -q.i, -q.j, -q.k⟩

def mul (a b : Quat α) : Quat α where
  w := a.w * b.w - a.i * b.i - a.j * b.j - a.k * b.k
  i := a.w * b.i + a.i * b.w + a.j * b.k - a.k * b.j
  j := a.w * b.j - a.i * b.k + a.j * b.w + a.k * b.i
  k := a.w * b.k + a.i * b.j - a.j * b.i + a.k * b.w

def normSquared (q : Quat α) : α :=
  q.w * q.w + q.i * q.i + q.j * q.j + q.k * q.k

-- The rotation about a unit axis by an angle.
def ofAxisAngle (axis : Vec3 α) (angle : α) : Quat α :=
  let s := Scalar.sin (Scalar.half angle)
  ⟨Scalar.cos (Scalar.half angle), axis.x * s, axis.y * s, axis.z * s⟩

-- The rotation by `roll` about x, then by `pitch` about the fixed y, then by `yaw` about the
-- fixed z.
def ofRollPitchYaw (roll pitch yaw : α) : Quat α :=
  let sr := Scalar.sin (Scalar.half roll)
  let cr := Scalar.cos (Scalar.half roll)
  let sp := Scalar.sin (Scalar.half pitch)
  let cp := Scalar.cos (Scalar.half pitch)
  let sy := Scalar.sin (Scalar.half yaw)
  let cy := Scalar.cos (Scalar.half yaw)
  { w := cr * cp * cy + sr * sp * sy
    i := sr * cp * cy - cr * sp * sy
    j := cr * sp * cy + sr * cp * sy
    k := cr * cp * sy - sr * sp * cy }

-- For a unit quaternion this is the product q v q*, with the scalar part cancelled out.
def rotate (q : Quat α) (v : Vec3 α) : Vec3 α :=
  let t := (q.imaginary.cross v).scale (1 + 1)
  ((t.scale q.w).add (q.imaginary.cross t)).add v

def toMatrix (q : Quat α) : Mat3 α :=
  let ww := q.w * q.w
  let ii := q.i * q.i
  let jj := q.j * q.j
  let kk := q.k * q.k
  let ij := Scalar.twice (q.i * q.j)
  let wk := Scalar.twice (q.w * q.k)
  let wj := Scalar.twice (q.w * q.j)
  let ik := Scalar.twice (q.i * q.k)
  let jk := Scalar.twice (q.j * q.k)
  let wi := Scalar.twice (q.w * q.i)
  .ofRows (ww + ii - jj - kk) (ij - wk) (wj + ik)
    (wk + ij) (ww - ii + jj - kk) (jk - wi)
    (ik - wj) (wi + jk) (ww - ii - jj + kk)

end Quat

-- The angles that `Quat.ofRollPitchYaw` turns into the rotation of a matrix. When the
-- pitch is a quarter turn, roll and yaw turn about one line and yaw is taken to be zero.
def Mat3.rollPitchYaw {α : Type} [Scalar α] (m : Mat3 α) : Vec3 α :=
  let s := m.third.x
  if Scalar.lt s 1 && Scalar.lt (-1) s then
    let pitch := -Scalar.asin s
    let c := Scalar.cos pitch
    ⟨Scalar.atan2 (m.third.y / c) (m.third.z / c), pitch,
      Scalar.atan2 (m.second.x / c) (m.first.x / c)⟩
  else if Scalar.le s (-1) then
    ⟨Scalar.atan2 m.first.y m.first.z, Scalar.halfPi, 0⟩
  else
    ⟨Scalar.atan2 (-m.first.y) (-m.first.z), -Scalar.halfPi, 0⟩

end Linkage.Space
