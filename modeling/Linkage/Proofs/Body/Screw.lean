import Linkage.Proofs.Body.Exponential
import Linkage.Proofs.Space.Adjoint

namespace Linkage

open Body Space

-- The screw of a joint in the link frame, where its line passes by the origin.
def Body.Motion.screw {α : Type} [Scalar α] (motion : Motion) (direction : Vec3 α) : Screw α :=
  match motion with
  | .turning => ⟨direction, .zero⟩
  | .sliding => .sliding direction

namespace Body.Segment

variable {origin center : Pose ℝ} {axis : Vec3 ℝ} {motion : Motion} {mass : ℝ} {inertia : Mat3 ℝ}

-- The screw that is put together at the center of mass is the one of the link frame, carried there.
theorem screwAtCenter?_eq_adjoint (hcenter : center.Rigid) (haxis : axis.dot axis = 1) :
    screwAtCenter? motion axis center =
      some (center.inverse.adjoint.mulScrew (motion.screw axis)) := by
  rw [screwAtCenter?_eq_some hcenter haxis, Pose.mulScrew_adjoint hcenter.inverse]
  cases motion with
  | turning =>
      simp only [Motion.screw, Quat.rotate_zero]
      congr 2
      ext <;> simp only [Vec3.add, Vec3.neg, Vec3.cross, Vec3.zero] <;> ring
  | sliding =>
      simp only [Motion.screw, Screw.sliding, Quat.rotate_zero]
      congr 2
      ext <;> simp only [Vec3.add, Vec3.cross, Vec3.zero] <;> ring

-- Only the direction of the axis counts.
theorem make?_of_direction (hcenter : center.Rigid) {direction : Vec3 ℝ}
    (hdirection : axis.strictDirection? = some direction) :
    make? origin axis motion mass center inertia =
      some ⟨⟨motion, mass, center, inertia,
        center.inverse.adjoint.mulScrew (motion.screw direction)⟩, origin, direction⟩ :=
  make?_eq_some_iff.mpr ⟨hdirection,
    screwAtCenter?_eq_adjoint hcenter (Vec3.dot_self_of_strictDirection? hdirection),
    rfl, rfl, rfl, rfl, rfl⟩

theorem angular_of_sliding (hcenter : center.Rigid) (direction : Vec3 ℝ) :
    (center.inverse.adjoint.mulScrew (Motion.sliding.screw direction)).angular = .zero := by
  rw [Pose.mulScrew_adjoint hcenter.inverse]
  exact Quat.rotate_zero _

-- There is a segment wherever the center of mass is. Its screw is the one of the link frame, seen from
-- the center of mass, so that another choice of that frame carries it along, and the length of the axis
-- does not matter.
theorem make?_screw (hcenter : center.Rigid) (hlong : Scalar.epsilon < axis.norm) :
    ∃ segment, make? origin axis motion mass center inertia = some segment ∧
      segment.body.screw =
        center.inverse.adjoint.mulScrew (motion.screw (axis.shrink axis.norm)) ∧
      (motion = .sliding → segment.body.screw.angular = .zero) ∧
      (∀ moved : Pose ℝ, moved.Rigid → ∃ other,
        make? origin axis motion mass (center.compose moved) inertia = some other ∧
          other.body.screw = moved.inverse.adjoint.mulScrew segment.body.screw) ∧
      ∀ factor : ℝ, Scalar.epsilon < factor * axis.norm →
        make? origin (axis.scale factor) motion mass center inertia = some segment := by
  have hdirection := Vec3.strictDirection?_eq_some_iff.mpr
    ⟨(Vec3.epsilon_lt_norm_iff axis).mp hlong, rfl⟩
  refine ⟨_, make?_of_direction hcenter hdirection, rfl, ?_, ?_, ?_⟩
  · rintro rfl
    exact angular_of_sliding hcenter _
  · intro moved hmoved
    refine ⟨_, make?_of_direction (hcenter.compose hmoved) hdirection, ?_⟩
    rw [Pose.inverse_of_compose hcenter hmoved,
      Pose.mulScrew_adjoint_compose hmoved.inverse hcenter.inverse]
  · intro factor hscaled
    exact make?_of_direction hcenter (Vec3.strictDirection?_scale hscaled)

-- The elbow, with an axis of length five and a longer one, and with another frame at its center of mass.
theorem make?_screw_elbow : elbowCenter.Rigid ∧ elbowOrigin.Rigid ∧
    Scalar.epsilon < (⟨0, 3, 4⟩ : Vec3 ℝ).norm ∧ ∃ segment other,
      make? elbowOrigin ⟨0, 3, 4⟩ .turning 1 elbowCenter (.diagonal 1) = some segment ∧
      segment.body.screw = elbowCenter.inverse.adjoint.mulScrew
        (Motion.turning.screw ((⟨0, 3, 4⟩ : Vec3 ℝ).shrink (⟨0, 3, 4⟩ : Vec3 ℝ).norm)) ∧
      make? elbowOrigin ⟨0, 3, 4⟩ .turning 1 (elbowCenter.compose elbowOrigin) (.diagonal 1) = some other ∧
      other.body.screw = elbowOrigin.inverse.adjoint.mulScrew segment.body.screw ∧
      make? elbowOrigin ((⟨0, 3, 4⟩ : Vec3 ℝ).scale (7 : ℕ)) .turning 1 elbowCenter (.diagonal 1) =
        some segment := by
  have horigin : elbowOrigin.Rigid := Pose.rigid_ofRollPitchYaw _ _
  have hcenter : elbowCenter.Rigid := Pose.rigid_ofRollPitchYaw _ _
  have hlong : Scalar.epsilon < (⟨0, 3, 4⟩ : Vec3 ℝ).norm := by
    rw [Vec3.epsilon_lt_norm_iff]
    simp only [Scalar.epsilon, Vec3.dot]
    norm_num
  have hlonger : Scalar.epsilon < ((7 : ℕ) : ℝ) * (⟨0, 3, 4⟩ : Vec3 ℝ).norm :=
    hlong.trans_le (le_mul_of_one_le_left (Vec3.norm_nonneg _) (by norm_num))
  obtain ⟨segment, h, hscrew, -, hmoved, hscaled⟩ := make?_screw hcenter hlong
  obtain ⟨other, hother, hcarried⟩ := hmoved elbowOrigin horigin
  exact ⟨hcenter, horigin, hlong, segment, other, h, hscrew, hother, hcarried, hscaled _ hlonger⟩

end Body.Segment

end Linkage
