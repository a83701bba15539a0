import Linkage.Proofs.Body.Displacement

namespace Linkage

open Body Space

-- Where a place is taken by moving along a screw for `x` units of time: a turn by `x` about a line,
-- or a shift.
noncomputable def Space.Screw.exponential (screw : Screw ℝ) (motion : Motion) (x : ℝ) (place : Vec3 ℝ) :
    Vec3 ℝ :=
  match motion with
  | .turning => ((Mat3.rotation screw.angular x).mulVec place).add
      ((screw.linear.scale (Real.sin x)).add
        ((screw.angular.cross screw.linear).scale (1 - Real.cos x)))
  | .sliding => place.add (screw.linear.scale x)

namespace Body.Segment

variable {origin center : Pose ℝ} {axis : Vec3 ℝ} {motion : Motion} {mass : ℝ} {inertia : Mat3 ℝ}
  {segment : Segment ℝ}

-- A direction stays one when it is turned into the frame of the center of mass, so that there always
-- is a screw.
theorem screwAtCenter?_eq_some (hcenter : center.Rigid) (haxis : axis.dot axis = 1) :
    screwAtCenter? motion axis center = some
      (match motion with
      | .turning => ⟨center.inverse.rotation.rotate axis,
          ((center.inverse.rotation.rotate axis).cross center.inverse.position).neg⟩
      | .sliding => .sliding (center.inverse.rotation.rotate axis)) := by
  have hturned : (center.inverse.rotation.rotate axis).dot (center.inverse.rotation.rotate axis) = 1 := by
    rw [Quat.dot_rotate hcenter.inverse, haxis]
  cases motion with
  | turning =>
      simp only [screwAtCenter?, Screw.turning?, Vec3.direction?_eq_self hturned, Option.map_some]
  | sliding => rfl

theorem rotate_inverse_position (hcenter : center.Rigid) :
    center.rotation.rotate center.inverse.position = center.position.neg :=
  Quat.rotate_rotate_conjugate hcenter center.position.neg

theorem rotate_inverse_rotate (hcenter : center.Rigid) (v : Vec3 ℝ) :
    center.rotation.rotate (center.inverse.rotation.rotate v) = v :=
  Quat.rotate_rotate_conjugate hcenter v

-- Moving along the screw as seen from the center of mass is what the joint does to the link.
theorem apply_exponential (hcenter : center.Rigid) (haxis : axis.dot axis = 1) {screw : Screw ℝ}
    (hscrew : screwAtCenter? motion axis center = some screw) (x : ℝ) (place : Vec3 ℝ) :
    center.apply (screw.exponential motion x place) = motion.carry axis x (center.apply place) := by
  rw [screwAtCenter?_eq_some hcenter haxis, Option.some.injEq] at hscrew
  subst hscrew
  cases motion with
  | turning =>
      simp only [Screw.exponential, Motion.carry, Pose.apply, Mat3.rotation_mulVec, Quat.rotate_add, Quat.rotate_scale,
        Quat.rotate_neg, Quat.rotate_cross hcenter, rotate_inverse_rotate hcenter,
        rotate_inverse_position hcenter]
      ext <;> simp only [Vec3.add, Vec3.scale, Vec3.neg, Vec3.cross] <;> ring
  | sliding =>
      simp only [Screw.exponential, Motion.carry, Screw.sliding, Pose.apply, Quat.rotate_add, Quat.rotate_scale,
        rotate_inverse_rotate hcenter, Vec3.add_assoc]

-- The screw at the center of mass generates the motion of the joint, though the one comes from the
-- axis as it is seen from there, and the other from a quaternion in the link frame.
theorem apply_transform (horigin : origin.Rigid) (hcenter : center.Rigid)
    (h : make? origin axis motion mass center inertia = some segment) (x : ℝ) :
    (segment.transform x).apply =
      origin.apply ∘ center.apply ∘ segment.body.screw.exponential motion x ∘ center.inverse.apply ∧
    (motion = .sliding → segment.body.screw.angular = .zero) := by
  obtain ⟨hdirection, hscrew, rfl, rfl, -, rfl, -⟩ := make?_eq_some_iff.mp h
  have haxis := Vec3.dot_self_of_strictDirection? hdirection
  constructor
  · funext place
    simp only [Function.comp_apply]
    rw [transform, Pose.apply_compose horigin (rigid_displacement haxis x),
      apply_exponential hcenter haxis hscrew, Pose.apply_inverse_apply hcenter, apply_displacement haxis]
  · intro hmotion
    rw [screwAtCenter?_eq_some hcenter haxis, hmotion, Option.some.injEq] at hscrew
    rw [← hscrew]
    rfl

theorem exists_make? (hcenter : center.Rigid)
    (hlong : Scalar.epsilon * Scalar.epsilon < axis.dot axis) :
    ∃ segment, make? origin axis motion mass center inertia = some segment := by
  have hdirection := Vec3.strictDirection?_eq_some_iff.mpr ⟨hlong, rfl⟩
  have haxis := Vec3.dot_self_of_strictDirection? hdirection
  simp only [make?, hdirection, screwAtCenter?_eq_some hcenter haxis, Option.map_some]
  exact ⟨_, rfl⟩

-- An elbow on a tilted origin, with a center of mass that is both turned and moved away.
noncomputable def elbowOrigin : Pose ℝ :=
  .ofRollPitchYaw ⟨1, 0, 0⟩ ⟨0, 1, 0⟩

noncomputable def elbowCenter : Pose ℝ :=
  .ofRollPitchYaw ⟨1, 1, 0⟩ ⟨0, 1, 1⟩

theorem apply_transform_elbow : elbowOrigin.Rigid ∧ elbowCenter.Rigid ∧ ∃ segment,
    make? elbowOrigin ⟨0, 3, 4⟩ .turning 1 elbowCenter (.diagonal 1) = some segment ∧
      (segment.transform 2).apply =
        elbowOrigin.apply ∘ elbowCenter.apply ∘
          segment.body.screw.exponential .turning 2 ∘ elbowCenter.inverse.apply := by
  have horigin : elbowOrigin.Rigid := Pose.rigid_ofRollPitchYaw _ _
  have hcenter : elbowCenter.Rigid := Pose.rigid_ofRollPitchYaw _ _
  obtain ⟨segment, h⟩ : ∃ segment,
      make? elbowOrigin ⟨0, 3, 4⟩ .turning 1 elbowCenter (.diagonal 1) = some segment := by
    apply exists_make? hcenter
    simp only [Scalar.epsilon, Vec3.dot]
    norm_num
  exact ⟨horigin, hcenter, segment, h, (apply_transform horigin hcenter h 2).1⟩

end Body.Segment

end Linkage
