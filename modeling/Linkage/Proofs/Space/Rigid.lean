import Linkage.Proofs.Space.Rotation
import Linkage.Space.Pose
import Mathlib.Algebra.Group.MinimalAxioms
import Mathlib.Tactic.Group

namespace Linkage.Space

attribute [ext] Pose

namespace Vec3

theorem add_assoc (u v w : Vec3 ℝ) : (u.add v).add w = u.add (v.add w) := by
  ext <;> simp only [add] <;> ring

theorem add_comm (u v : Vec3 ℝ) : u.add v = v.add u := by
  ext <;> simp only [add] <;> ring

theorem zero_add (v : Vec3 ℝ) : zero.add v = v := by
  ext <;> simp [add, zero]

theorem neg_add (v : Vec3 ℝ) : v.neg.add v = zero := by
  ext <;> simp [add, neg, zero]

end Vec3

namespace Pose

-- The rotation is given by a unit quaternion.
def Rigid (pose : Pose ℝ) : Prop :=
  pose.rotation.normSquared = 1

theorem rigid_one : (one : Pose ℝ).Rigid :=
  Quat.normSquared_one

theorem rigid_ofRollPitchYaw (angles position : Vec3 ℝ) : (ofRollPitchYaw angles position).Rigid :=
  Quat.normSquared_ofRollPitchYaw _ _ _

variable {a b : Pose ℝ}

theorem Rigid.compose (ha : a.Rigid) (hb : b.Rigid) : (a.compose b).Rigid := by
  have h := Quat.normSquared_mul a.rotation b.rotation
  rw [ha, hb] at h
  rwa [one_mul] at h

theorem Rigid.inverse (ha : a.Rigid) : a.inverse.Rigid :=
  (Quat.normSquared_conjugate a.rotation).trans ha

theorem apply_compose (ha : a.Rigid) (hb : b.Rigid) (v : Vec3 ℝ) :
    (a.compose b).apply v = a.apply (b.apply v) := by
  simp only [apply, compose]
  rw [Quat.rotate_mul ha hb, Quat.rotate_add, Vec3.add_assoc]

theorem apply_one (v : Vec3 ℝ) : one.apply v = v := by
  rw [apply, one, Quat.rotate_one, Vec3.zero_add]

theorem one_compose (a : Pose ℝ) : one.compose a = a := by
  ext1
  · exact apply_one a.position
  · exact Quat.one_mul a.rotation

theorem compose_assoc (ha : a.Rigid) (hb : b.Rigid) (c : Pose ℝ) :
    (a.compose b).compose c = a.compose (b.compose c) := by
  ext1
  · exact apply_compose ha hb c.position
  · exact Quat.mul_assoc a.rotation b.rotation c.rotation

theorem inverse_compose (ha : a.Rigid) : a.inverse.compose a = one := by
  ext1
  · simp only [compose, apply, inverse, one]
    rw [Quat.rotate_neg, Vec3.neg_add]
  · exact Quat.conjugate_mul ha

end Pose

-- Poses with a unit quaternion. Composing them is multiplying in a group.
@[ext]
structure RigidPose where
  pose : Pose ℝ
  rigid : pose.Rigid

namespace RigidPose

noncomputable instance : Mul RigidPose :=
  ⟨fun a b => ⟨a.pose.compose b.pose, a.rigid.compose b.rigid⟩⟩

noncomputable instance : One RigidPose :=
  ⟨⟨.one, Pose.rigid_one⟩⟩

noncomputable instance : Inv RigidPose :=
  ⟨fun a => ⟨a.pose.inverse, a.rigid.inverse⟩⟩

@[simp]
theorem pose_mul (a b : RigidPose) : (a * b).pose = a.pose.compose b.pose :=
  rfl

@[simp]
theorem pose_one : (1 : RigidPose).pose = .one :=
  rfl

noncomputable instance : Group RigidPose :=
  Group.ofLeftAxioms (fun a b c => RigidPose.ext (Pose.compose_assoc a.rigid b.rigid c.pose))
    (fun a => RigidPose.ext (Pose.one_compose a.pose))
    (fun a => RigidPose.ext (Pose.inverse_compose a.rigid))

end RigidPose

namespace Pose

variable {a b : Pose ℝ}

theorem compose_inverse (ha : a.Rigid) : a.compose a.inverse = one :=
  congrArg RigidPose.pose (mul_inv_cancel (⟨a, ha⟩ : RigidPose))

theorem inverse_of_compose (ha : a.Rigid) (hb : b.Rigid) :
    (a.compose b).inverse = b.inverse.compose a.inverse :=
  congrArg RigidPose.pose (mul_inv_rev (⟨a, ha⟩ : RigidPose) ⟨b, hb⟩)

theorem apply_inverse_apply (ha : a.Rigid) (v : Vec3 ℝ) : a.apply (a.inverse.apply v) = v := by
  rw [← apply_compose ha ha.inverse, compose_inverse ha, apply_one]

end Pose

end Linkage.Space
