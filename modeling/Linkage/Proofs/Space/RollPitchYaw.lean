import Linkage.Proofs.Space.Adjoint

namespace Linkage.Space

namespace Mat3

-- Turns about the axes of coordinates.
noncomputable def aboutX (angle : ℝ) : Mat3 ℝ :=
  ofRows 1 0 0 0 (Real.cos angle) (-Real.sin angle) 0 (Real.sin angle) (Real.cos angle)

noncomputable def aboutY (angle : ℝ) : Mat3 ℝ :=
  ofRows (Real.cos angle) 0 (Real.sin angle) 0 1 0 (-Real.sin angle) 0 (Real.cos angle)

noncomputable def aboutZ (angle : ℝ) : Mat3 ℝ :=
  ofRows (Real.cos angle) (-Real.sin angle) 0 (Real.sin angle) (Real.cos angle) 0 0 0 1

-- The roll about x comes first, then the pitch about the fixed y, then the yaw about the fixed z.
noncomputable def ofRollPitchYaw (angles : Vec3 ℝ) : Mat3 ℝ :=
  ((aboutZ angles.z).mul (aboutY angles.y)).mul (aboutX angles.x)

theorem ofRollPitchYaw_eq (angles : Vec3 ℝ) : ofRollPitchYaw angles =
    ofRows (Real.cos angles.z * Real.cos angles.y)
      (Real.cos angles.z * Real.sin angles.y * Real.sin angles.x - Real.sin angles.z * Real.cos angles.x)
      (Real.cos angles.z * Real.sin angles.y * Real.cos angles.x + Real.sin angles.z * Real.sin angles.x)
      (Real.sin angles.z * Real.cos angles.y)
      (Real.sin angles.z * Real.sin angles.y * Real.sin angles.x + Real.cos angles.z * Real.cos angles.x)
      (Real.sin angles.z * Real.sin angles.y * Real.cos angles.x - Real.cos angles.z * Real.sin angles.x)
      (-Real.sin angles.y) (Real.cos angles.y * Real.sin angles.x) (Real.cos angles.y * Real.cos angles.x) := by
  ext <;> simp only [ofRollPitchYaw, aboutX, aboutY, aboutZ, mul, mulVec, transpose, ofRows, Vec3.dot] <;> ring

theorem rotation_unitX (angle : ℝ) : rotation .unitX angle = aboutX angle := by
  ext <;> simp [rotation, aboutX, Vec3.unitX, add, scale, diagonal, skew, ofRows, mul, mulVec, transpose,
    Vec3.add, Vec3.scale, Vec3.dot]

theorem rotation_unitY (angle : ℝ) : rotation ⟨0, 1, 0⟩ angle = aboutY angle := by
  ext <;> simp [rotation, aboutY, add, scale, diagonal, skew, ofRows, mul, mulVec, transpose,
    Vec3.add, Vec3.scale, Vec3.dot]

theorem rotation_unitZ (angle : ℝ) : rotation .unitZ angle = aboutZ angle := by
  ext <;> simp [rotation, aboutZ, Vec3.unitZ, add, scale, diagonal, skew, ofRows, mul, mulVec, transpose,
    Vec3.add, Vec3.scale, Vec3.dot]

end Mat3

namespace Quat

-- The formula with halved angles is the product of the three turns.
theorem ofRollPitchYaw_eq_mul (roll pitch yaw : ℝ) : ofRollPitchYaw roll pitch yaw =
    ((ofAxisAngle .unitZ yaw).mul (ofAxisAngle ⟨0, 1, 0⟩ pitch)).mul (ofAxisAngle .unitX roll) := by
  ext <;> simp only [ofRollPitchYaw, ofAxisAngle, mul, Vec3.unitX, Vec3.unitZ] <;> ring

theorem toMatrix_ofRollPitchYaw (angles : Vec3 ℝ) :
    (ofRollPitchYaw angles.x angles.y angles.z).toMatrix = Mat3.ofRollPitchYaw angles := by
  have hx : (Vec3.unitX : Vec3 ℝ).dot .unitX = 1 := by simp [Vec3.unitX, Vec3.dot]
  have hy : (⟨0, 1, 0⟩ : Vec3 ℝ).dot ⟨0, 1, 0⟩ = 1 := by simp [Vec3.dot]
  have hz : (Vec3.unitZ : Vec3 ℝ).dot .unitZ = 1 := by simp [Vec3.unitZ, Vec3.dot]
  rw [ofRollPitchYaw_eq_mul, toMatrix_mul, toMatrix_mul, toMatrix_ofAxisAngle hx, toMatrix_ofAxisAngle hy,
    toMatrix_ofAxisAngle hz, Mat3.rotation_unitX, Mat3.rotation_unitY, Mat3.rotation_unitZ]
  rfl

end Quat

namespace Pose

-- A frame is turned by roll, pitch and yaw, in this order and about fixed axes, and then moved to its
-- place. The quaternion of unit length and the matrix agree on that.
theorem ofRollPitchYaw_convention (angles position : Vec3 ℝ) :
    (ofRollPitchYaw angles position).rotation.toMatrix = .ofRollPitchYaw angles ∧
    (ofRollPitchYaw angles position).rotation.normSquared = 1 ∧
    (∀ v, (ofRollPitchYaw angles position).rotation.rotate v = (Mat3.ofRollPitchYaw angles).mulVec v) ∧
    ∀ place, (ofRollPitchYaw angles position).apply place =
      ((Mat3.ofRollPitchYaw angles).mulVec place).add position := by
  have hrigid : (ofRollPitchYaw angles position).Rigid := rigid_ofRollPitchYaw angles position
  have hmatrix : (ofRollPitchYaw angles position).rotation.toMatrix = .ofRollPitchYaw angles :=
    Quat.toMatrix_ofRollPitchYaw angles
  have hrotate : ∀ v, (ofRollPitchYaw angles position).rotation.rotate v =
      (Mat3.ofRollPitchYaw angles).mulVec v := by
    intro v
    rw [Quat.rotate_eq_mulVec hrigid, hmatrix]
  refine ⟨hmatrix, hrigid, hrotate, ?_⟩
  intro place
  rw [apply, hrotate, Vec3.add_comm]
  rfl

end Pose

end Linkage.Space
