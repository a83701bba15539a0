import Linkage.Proofs.Space.Real
import Linkage.Space.Quat
import Mathlib.Tactic.LinearCombination

namespace Linkage.Space

attribute [ext] Quat

namespace Mat3

def add {α : Type} [Scalar α] (a b : Mat3 α) : Mat3 α :=
  ⟨a.first.add b.first, a.second.add b.second, a.third.add b.third⟩

def scale {α : Type} [Scalar α] (m : Mat3 α) (factor : α) : Mat3 α :=
  ⟨m.first.scale factor, m.second.scale factor, m.third.scale factor⟩

theorem mulVec_mul (a b : Mat3 ℝ) (v : Vec3 ℝ) : (a.mul b).mulVec v = a.mulVec (b.mulVec v) := by
  ext <;> simp only [mul, mulVec, transpose, Vec3.dot] <;> ring

-- The rotation about a unit vector by an angle.
noncomputable def rotation (axis : Vec3 ℝ) (angle : ℝ) : Mat3 ℝ :=
  ((diagonal 1).add ((skew axis).scale (Real.sin angle))).add
    (((skew axis).mul (skew axis)).scale (1 - Real.cos angle))

theorem rotation_mulVec (axis : Vec3 ℝ) (angle : ℝ) (v : Vec3 ℝ) :
    (rotation axis angle).mulVec v =
      (v.add ((axis.cross v).scale (Real.sin angle))).add
        ((axis.cross (axis.cross v)).scale (1 - Real.cos angle)) := by
  ext <;> simp only [rotation, mulVec, add, scale, diagonal, skew, ofRows, mul, transpose, Vec3.add,
    Vec3.scale, Vec3.cross, Vec3.dot] <;> ring

end Mat3

namespace Quat

theorem mul_assoc (a b c : Quat ℝ) : (a.mul b).mul c = a.mul (b.mul c) := by
  ext <;> simp only [mul] <;> ring

theorem one_mul (a : Quat ℝ) : one.mul a = a := by
  ext <;> simp [mul, one]

theorem normSquared_one : (one : Quat ℝ).normSquared = 1 := by
  simp [normSquared, one]

theorem normSquared_mul (a b : Quat ℝ) :
    (a.mul b).normSquared = a.normSquared * b.normSquared := by
  simp only [mul, normSquared]
  ring

theorem normSquared_conjugate (a : Quat ℝ) : a.conjugate.normSquared = a.normSquared := by
  simp only [conjugate, normSquared]
  ring

theorem conjugate_mul {a : Quat ℝ} (ha : a.normSquared = 1) : a.conjugate.mul a = one := by
  simp only [normSquared] at ha
  ext <;> simp only [mul, conjugate, one]
  · linear_combination ha
  · ring
  · ring
  · ring

theorem toMatrix_mul (a b : Quat ℝ) : (a.mul b).toMatrix = a.toMatrix.mul b.toMatrix := by
  ext <;> simp only [mul, toMatrix, Mat3.ofRows, Mat3.mul, Mat3.mulVec, Mat3.transpose, Vec3.dot,
    Scalar.twice] <;> ring

theorem toMatrix_conjugate (a : Quat ℝ) : a.conjugate.toMatrix = a.toMatrix.transpose := by
  ext <;> simp only [conjugate, toMatrix, Mat3.ofRows, Mat3.transpose, Scalar.twice] <;> ring

-- The shorter formula for rotating leaves out the length of the quaternion.
theorem rotate_eq_mulVec {a : Quat ℝ} (ha : a.normSquared = 1) (v : Vec3 ℝ) :
    a.rotate v = a.toMatrix.mulVec v := by
  simp only [normSquared] at ha
  ext <;> simp only [rotate, imaginary, Vec3.add, Vec3.scale, Vec3.cross, toMatrix, Mat3.ofRows,
    Mat3.mulVec, Vec3.dot, Scalar.twice]
  · linear_combination (-v.x) * ha
  · linear_combination (-v.y) * ha
  · linear_combination (-v.z) * ha

theorem transpose_toMatrix_mulVec {a : Quat ℝ} (ha : a.normSquared = 1) (v : Vec3 ℝ) :
    a.toMatrix.transpose.mulVec v = a.conjugate.rotate v := by
  have hconjugate : a.conjugate.normSquared = 1 := by rw [normSquared_conjugate, ha]
  rw [← toMatrix_conjugate, rotate_eq_mulVec hconjugate]

theorem rotate_one (v : Vec3 ℝ) : (one : Quat ℝ).rotate v = v := by
  ext <;> simp [rotate, one, imaginary, Vec3.add, Vec3.scale, Vec3.cross]

theorem rotate_mul {a b : Quat ℝ} (ha : a.normSquared = 1) (hb : b.normSquared = 1) (v : Vec3 ℝ) :
    (a.mul b).rotate v = a.rotate (b.rotate v) := by
  have hab : (a.mul b).normSquared = 1 := by
    rw [normSquared_mul, ha, hb]
    norm_num
  rw [rotate_eq_mulVec hab, toMatrix_mul, Mat3.mulVec_mul, rotate_eq_mulVec ha, rotate_eq_mulVec hb]

theorem rotate_add (a : Quat ℝ) (u v : Vec3 ℝ) : a.rotate (u.add v) = (a.rotate u).add (a.rotate v) := by
  ext <;> simp only [rotate, imaginary, Vec3.add, Vec3.scale, Vec3.cross] <;> ring

theorem rotate_neg (a : Quat ℝ) (v : Vec3 ℝ) : a.rotate v.neg = (a.rotate v).neg := by
  ext <;> simp only [rotate, imaginary, Vec3.add, Vec3.neg, Vec3.scale, Vec3.cross] <;> ring

theorem rotate_zero (a : Quat ℝ) : a.rotate .zero = .zero := by
  ext <;> simp [rotate, imaginary, Vec3.add, Vec3.scale, Vec3.cross, Vec3.zero]

theorem rotate_scale (a : Quat ℝ) (v : Vec3 ℝ) (factor : ℝ) :
    a.rotate (v.scale factor) = (a.rotate v).scale factor := by
  ext <;> simp only [rotate, imaginary, Vec3.add, Vec3.scale, Vec3.cross] <;> ring

theorem rotate_cross {a : Quat ℝ} (ha : a.normSquared = 1) (u v : Vec3 ℝ) :
    a.rotate (u.cross v) = (a.rotate u).cross (a.rotate v) := by
  have hcross : (a.toMatrix.mulVec u).cross (a.toMatrix.mulVec v) =
      (a.toMatrix.mulVec (u.cross v)).scale a.normSquared := by
    ext <;> simp only [toMatrix, Mat3.ofRows, Mat3.mulVec, Vec3.dot, Vec3.cross, Vec3.scale,
      Scalar.twice, normSquared] <;> ring
  have hscale : ∀ w : Vec3 ℝ, w.scale 1 = w := by
    intro w
    ext <;> simp [Vec3.scale]
  rw [rotate_eq_mulVec ha, rotate_eq_mulVec ha, rotate_eq_mulVec ha, hcross, ha, hscale]

theorem dot_rotate {a : Quat ℝ} (ha : a.normSquared = 1) (u v : Vec3 ℝ) :
    (a.rotate u).dot (a.rotate v) = u.dot v := by
  have hdot : (a.toMatrix.mulVec u).dot (a.toMatrix.mulVec v) =
      a.normSquared * a.normSquared * u.dot v := by
    simp only [toMatrix, Mat3.ofRows, Mat3.mulVec, Vec3.dot, Scalar.twice, normSquared]
    ring
  rw [rotate_eq_mulVec ha, rotate_eq_mulVec ha, hdot, ha]
  ring

theorem rotate_conjugate_rotate {a : Quat ℝ} (ha : a.normSquared = 1) (v : Vec3 ℝ) :
    a.conjugate.rotate (a.rotate v) = v := by
  have hconjugate : a.conjugate.normSquared = 1 := by rw [normSquared_conjugate, ha]
  rw [← rotate_mul hconjugate ha, conjugate_mul ha, rotate_one]

theorem conjugate_conjugate (a : Quat ℝ) : a.conjugate.conjugate = a := by
  ext <;> simp [conjugate]

theorem rotate_rotate_conjugate {a : Quat ℝ} (ha : a.normSquared = 1) (v : Vec3 ℝ) :
    a.rotate (a.conjugate.rotate v) = v := by
  have hconjugate : a.conjugate.normSquared = 1 := by rw [normSquared_conjugate, ha]
  have h := rotate_conjugate_rotate hconjugate v
  rwa [conjugate_conjugate] at h

section AxisAngle

variable {axis : Vec3 ℝ} (haxis : axis.dot axis = 1)

include haxis

theorem normSquared_ofAxisAngle (angle : ℝ) : (ofAxisAngle axis angle).normSquared = 1 := by
  have hone := Real.sin_sq_add_cos_sq (Scalar.half angle)
  simp only [Vec3.dot] at haxis
  simp only [normSquared, ofAxisAngle, Scalar.sin, Scalar.cos]
  linear_combination hone + Real.sin (Scalar.half angle) ^ 2 * haxis

-- Turns about one axis add up, in spite of their halved angles.
theorem ofAxisAngle_add (x y : ℝ) :
    ofAxisAngle axis (x + y) = (ofAxisAngle axis x).mul (ofAxisAngle axis y) := by
  have hsin := Real.sin_add (Scalar.half x) (Scalar.half y)
  have hcos := Real.cos_add (Scalar.half x) (Scalar.half y)
  simp only [Vec3.dot] at haxis
  ext <;> simp only [ofAxisAngle, mul, Scalar.half_add, Scalar.sin, Scalar.cos, hsin, hcos]
  · linear_combination Real.sin (Scalar.half x) * Real.sin (Scalar.half y) * haxis
  · ring
  · ring
  · ring

theorem toMatrix_ofAxisAngle (angle : ℝ) : (ofAxisAngle axis angle).toMatrix = .rotation axis angle := by
  have hone := Real.sin_sq_add_cos_sq (Scalar.half angle)
  have hsin : Real.sin angle = 2 * Real.sin (Scalar.half angle) * Real.cos (Scalar.half angle) := by
    rw [← Real.sin_two_mul, Scalar.two_mul_half]
  have hcos : Real.cos angle = 1 - 2 * Real.sin (Scalar.half angle) ^ 2 := by
    rw [← Scalar.two_mul_half angle, Real.cos_two_mul, Scalar.two_mul_half]
    linear_combination 2 * hone
  simp only [Vec3.dot] at haxis
  ext <;> simp only [ofAxisAngle, toMatrix, Mat3.rotation, Mat3.add, Mat3.scale, Mat3.diagonal,
    Mat3.skew, Mat3.mul, Mat3.mulVec, Mat3.transpose, Mat3.ofRows, Vec3.add, Vec3.scale, Vec3.dot,
    Scalar.twice, Scalar.sin, Scalar.cos, hsin, hcos]
  · linear_combination hone + Real.sin (Scalar.half angle) ^ 2 * haxis
  · ring
  · ring
  · ring
  · linear_combination hone + Real.sin (Scalar.half angle) ^ 2 * haxis
  · ring
  · ring
  · ring
  · linear_combination hone + Real.sin (Scalar.half angle) ^ 2 * haxis

end AxisAngle

theorem normSquared_ofRollPitchYaw (roll pitch yaw : ℝ) :
    (ofRollPitchYaw roll pitch yaw).normSquared = 1 := by
  have hroll := Real.sin_sq_add_cos_sq (Scalar.half roll)
  have hpitch := Real.sin_sq_add_cos_sq (Scalar.half pitch)
  have hyaw := Real.sin_sq_add_cos_sq (Scalar.half yaw)
  simp only [normSquared, ofRollPitchYaw, Scalar.sin, Scalar.cos]
  calc
    _ = (Real.sin (Scalar.half roll) ^ 2 + Real.cos (Scalar.half roll) ^ 2) *
        (Real.sin (Scalar.half pitch) ^ 2 + Real.cos (Scalar.half pitch) ^ 2) *
        (Real.sin (Scalar.half yaw) ^ 2 + Real.cos (Scalar.half yaw) ^ 2) := by ring
    _ = 1 := by
      rw [hroll, hpitch, hyaw]
      norm_num

end Quat

end Linkage.Space
