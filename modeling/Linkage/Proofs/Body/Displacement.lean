import Linkage.Proofs.Body.Segment
import Linkage.Proofs.Space.Rigid

namespace Linkage.Body

open Space

-- Where a place is taken by the motion of a joint by `x`.
noncomputable def Motion.carry (motion : Motion) (axis : Vec3 ℝ) (x : ℝ) (place : Vec3 ℝ) : Vec3 ℝ :=
  match motion with
  | .turning => (Mat3.rotation axis x).mulVec place
  | .sliding => place.add (axis.scale x)

namespace Segment

-- The joint sits on a unit quaternion and its axis has length one.
structure Rigid (segment : Segment ℝ) : Prop where
  origin : segment.origin.Rigid
  axis : segment.axis.dot segment.axis = 1

theorem rigid_of_make? {origin center : Pose ℝ} {axis : Vec3 ℝ} {motion : Motion} {mass : ℝ}
    {inertia : Mat3 ℝ} {segment : Segment ℝ} (horigin : origin.Rigid)
    (h : make? origin axis motion mass center inertia = some segment) : segment.Rigid := by
  obtain ⟨hdirection, -, rfl, -⟩ := make?_eq_some_iff.mp h
  exact ⟨horigin, Vec3.dot_self_of_strictDirection? hdirection⟩

variable {segment : Segment ℝ}

theorem apply_displacement (haxis : segment.axis.dot segment.axis = 1) (x : ℝ) (place : Vec3 ℝ) :
    (segment.displacement x).apply place = segment.body.motion.carry segment.axis x place := by
  unfold displacement Motion.carry
  cases segment.body.motion with
  | turning =>
      simp only [Pose.apply, Vec3.zero_add]
      rw [Quat.rotate_eq_mulVec (Quat.normSquared_ofAxisAngle haxis x), Quat.toMatrix_ofAxisAngle haxis]
  | sliding =>
      simp only [Pose.apply, Quat.rotate_one]
      ext <;> simp only [Vec3.add, Vec3.scale] <;> ring

theorem rigid_displacement (haxis : segment.axis.dot segment.axis = 1) (x : ℝ) :
    (segment.displacement x).Rigid := by
  unfold displacement
  cases segment.body.motion with
  | turning => exact Quat.normSquared_ofAxisAngle haxis x
  | sliding => exact Quat.normSquared_one

theorem displacement_add (haxis : segment.axis.dot segment.axis = 1) (x y : ℝ) :
    segment.displacement (x + y) = (segment.displacement x).compose (segment.displacement y) := by
  unfold displacement
  cases segment.body.motion with
  | turning =>
      ext1
      · simp only [Pose.compose, Pose.apply, Quat.rotate_zero, Vec3.zero_add]
      · exact Quat.ofAxisAngle_add haxis x y
  | sliding =>
      ext1
      · simp only [Pose.compose, Pose.apply, Quat.rotate_one]
        ext <;> simp only [Vec3.add, Vec3.scale] <;> ring
      · exact (Quat.one_mul _).symm

namespace Rigid

theorem transform (h : segment.Rigid) (x : ℝ) : (segment.transform x).Rigid :=
  h.origin.compose (rigid_displacement h.axis x)

theorem transform_add (h : segment.Rigid) (x y : ℝ) :
    segment.transform (x + y) = (segment.transform x).compose (segment.displacement y) := by
  rw [Segment.transform, displacement_add h.axis,
    ← Pose.compose_assoc h.origin (rigid_displacement h.axis x)]
  rfl

end Rigid

end Segment

end Linkage.Body
