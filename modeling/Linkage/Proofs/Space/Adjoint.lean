import Linkage.Proofs.Space.Rigid
import Linkage.Space.Screw

namespace Linkage.Space

attribute [ext] Mat6 Screw

namespace Vec3

theorem add_zero (v : Vec3 ℝ) : v.add zero = v := by
  ext <;> simp [add, zero]

theorem zero_cross (v : Vec3 ℝ) : zero.cross v = zero := by
  ext <;> simp [cross, zero]

theorem add_cross (u v w : Vec3 ℝ) : (u.add v).cross w = (u.cross w).add (v.cross w) := by
  ext <;> simp only [cross, add] <;> ring

theorem neg_cross_add (u v w : Vec3 ℝ) :
    (u.cross (v.add w)).neg = (v.cross u).add (u.cross w).neg := by
  ext <;> simp only [cross, add, neg] <;> ring

end Vec3

namespace Mat3

theorem mulVec_add (m : Mat3 ℝ) (u v : Vec3 ℝ) :
    m.mulVec (u.add v) = (m.mulVec u).add (m.mulVec v) := by
  ext <;> simp only [mulVec, Vec3.dot, Vec3.add] <;> ring

theorem mulVec_zero (m : Mat3 ℝ) : m.mulVec .zero = .zero := by
  ext <;> simp [mulVec, Vec3.dot, Vec3.zero]

theorem zero_mulVec (v : Vec3 ℝ) : (zero : Mat3 ℝ).mulVec v = .zero := by
  ext <;> simp [zero, mulVec, Vec3.dot, Vec3.zero]

theorem diagonal_one_mulVec (v : Vec3 ℝ) : (diagonal 1 : Mat3 ℝ).mulVec v = v := by
  ext <;> simp [diagonal, ofRows, mulVec, Vec3.dot]

theorem skew_mulVec (u v : Vec3 ℝ) : (skew u).mulVec v = u.cross v := by
  ext <;> simp only [skew, ofRows, mulVec, Vec3.dot, Vec3.cross] <;> ring

theorem accumulate_mulVec (total a b : Mat3 ℝ) (v : Vec3 ℝ) :
    (accumulate total a b).mulVec v = (total.mulVec v).add (a.mulVec (b.mulVec v)) := by
  ext <;> simp only [accumulate, accumulateRow, transpose, mulVec, Vec3.dot, Vec3.add] <;> ring

-- A matrix is known by what it makes of vectors.
theorem ext_mulVec {a b : Mat3 ℝ} (h : ∀ v, a.mulVec v = b.mulVec v) : a = b := by
  have hx := h ⟨1, 0, 0⟩
  have hy := h ⟨0, 1, 0⟩
  have hz := h ⟨0, 0, 1⟩
  simp only [mulVec, Vec3.dot, Vec3.mk.injEq, mul_one, mul_zero, add_zero, zero_add] at hx hy hz
  ext <;> simp only [hx, hy, hz]

end Mat3

namespace Mat6

theorem mulScrew_mul (a b : Mat6 ℝ) (s : Screw ℝ) :
    (a.mul b).mulScrew s = a.mulScrew (b.mulScrew s) := by
  ext1
  all_goals
    simp only [mulScrew, mul, Mat3.accumulate_mulVec, Mat3.mulVec_mul, Mat3.mulVec_add]
    ext <;> simp only [Vec3.add] <;> ring

theorem one_mulScrew (s : Screw ℝ) : (one : Mat6 ℝ).mulScrew s = s := by
  ext1
  · simp only [mulScrew, one, Mat3.diagonal_one_mulVec, Mat3.zero_mulVec, Vec3.add_zero]
  · simp only [mulScrew, one, Mat3.diagonal_one_mulVec, Mat3.zero_mulVec, Vec3.zero_add]

-- The same holds for screws: those with one part only tell the blocks apart.
theorem ext_mulScrew {a b : Mat6 ℝ} (h : ∀ s, a.mulScrew s = b.mulScrew s) : a = b := by
  have hangular : ∀ v, a.mulScrew ⟨v, .zero⟩ = b.mulScrew ⟨v, .zero⟩ := fun v => h ⟨v, .zero⟩
  have hlinear : ∀ v, a.mulScrew ⟨.zero, v⟩ = b.mulScrew ⟨.zero, v⟩ := fun v => h ⟨.zero, v⟩
  simp only [mulScrew, Mat3.mulVec_zero, Vec3.add_zero, Vec3.zero_add, Screw.mk.injEq] at hangular hlinear
  ext1
  · exact Mat3.ext_mulVec fun v => (hangular v).1
  · exact Mat3.ext_mulVec fun v => (hlinear v).1
  · exact Mat3.ext_mulVec fun v => (hangular v).2
  · exact Mat3.ext_mulVec fun v => (hlinear v).2

end Mat6

namespace Quat

variable {a : Quat ℝ}

theorem norm_rotate (ha : a.normSquared = 1) (v : Vec3 ℝ) : (a.rotate v).norm = v.norm :=
  congrArg Scalar.sqrt (dot_rotate ha v v)

theorem rotate_shrink (a : Quat ℝ) (v : Vec3 ℝ) (divisor : ℝ) :
    a.rotate (v.shrink divisor) = (a.rotate v).shrink divisor := by
  have hscale : ∀ w : Vec3 ℝ, w.shrink divisor = w.scale divisor⁻¹ := fun _ => rfl
  rw [hscale, hscale, rotate_scale]

end Quat

-- There is a screw for every axis that is long enough.
theorem Screw.turning?_eq_some_iff {axis point : Vec3 ℝ} {screw : Screw ℝ} :
    turning? axis point = some screw ↔ Scalar.epsilon < axis.norm ∧
      screw = ⟨axis.shrink axis.norm, ((axis.shrink axis.norm).cross point).neg⟩ := by
  by_cases hlong : Scalar.epsilon < axis.norm
  · simp [turning?, Vec3.direction?, Scalar.le, hlong, eq_comm]
  · simp [turning?, Vec3.direction?, Scalar.le, hlong, not_lt.mp hlong]

namespace Pose

variable {a b : Pose ℝ}

-- Both parts of a screw are turned, and what is turned about passes by the moved origin.
theorem mulScrew_adjoint (ha : a.Rigid) (s : Screw ℝ) :
    a.adjoint.mulScrew s = ⟨a.rotation.rotate s.angular,
      (a.position.cross (a.rotation.rotate s.angular)).add (a.rotation.rotate s.linear)⟩ := by
  simp only [Mat6.mulScrew, adjoint, Mat3.mulVec_mul, Mat3.skew_mulVec, Mat3.zero_mulVec,
    Vec3.add_zero, Quat.rotate_eq_mulVec ha]

theorem mulScrew_adjoint_compose (ha : a.Rigid) (hb : b.Rigid) (s : Screw ℝ) :
    (a.compose b).adjoint.mulScrew s = a.adjoint.mulScrew (b.adjoint.mulScrew s) := by
  rw [mulScrew_adjoint (ha.compose hb), mulScrew_adjoint hb, mulScrew_adjoint ha]
  simp only [compose, apply, Quat.rotate_mul ha hb, Quat.rotate_add, Quat.rotate_cross ha,
    Vec3.add_cross, Vec3.add_assoc]

theorem adjoint_compose (ha : a.Rigid) (hb : b.Rigid) :
    (a.compose b).adjoint = a.adjoint.mul b.adjoint := by
  apply Mat6.ext_mulScrew
  intro s
  rw [Mat6.mulScrew_mul, mulScrew_adjoint_compose ha hb]

theorem adjoint_one : (one : Pose ℝ).adjoint = .one := by
  apply Mat6.ext_mulScrew
  intro s
  rw [mulScrew_adjoint rigid_one, Mat6.one_mulScrew]
  ext1
  · exact Quat.rotate_one s.angular
  · simp only [one, Quat.rotate_one, Vec3.zero_cross, Vec3.zero_add]

theorem adjoint_inverse_mul (ha : a.Rigid) : a.inverse.adjoint.mul a.adjoint = .one := by
  rw [← adjoint_compose ha.inverse ha, inverse_compose ha, adjoint_one]

-- The line that a screw turns about is moved along with the screw.
theorem turning?_apply (ha : a.Rigid) {axis point : Vec3 ℝ} {screw : Screw ℝ}
    (h : Screw.turning? axis point = some screw) :
    Screw.turning? (a.rotation.rotate axis) (a.apply point) = some (a.adjoint.mulScrew screw) := by
  obtain ⟨hlong, rfl⟩ := Screw.turning?_eq_some_iff.mp h
  have hnorm := Quat.norm_rotate ha axis
  refine Screw.turning?_eq_some_iff.mpr ⟨hnorm ▸ hlong, ?_⟩
  rw [mulScrew_adjoint ha, hnorm, ← Quat.rotate_shrink]
  simp only [apply, Quat.rotate_neg, Quat.rotate_cross ha, Vec3.neg_cross_add]

-- Acting on screws respects composition, the pose that does nothing and inverses, and a screw about a
-- line goes to the screw about the moved line, which there is again.
theorem adjoint_representation (ha : a.Rigid) (hb : b.Rigid) :
    (a.compose b).adjoint = a.adjoint.mul b.adjoint ∧
    (one : Pose ℝ).adjoint = .one ∧
    a.inverse.adjoint.mul a.adjoint = .one ∧
    ∀ axis point screw, Screw.turning? axis point = some screw →
      Screw.turning? (a.rotation.rotate axis) (a.apply point) = some (a.adjoint.mulScrew screw) :=
  ⟨adjoint_compose ha hb, adjoint_one, adjoint_inverse_mul ha, fun _ _ _ h => turning?_apply ha h⟩

-- A tilted frame, another one off its origin, and a hinge beside both.
noncomputable def tilted : Pose ℝ :=
  .ofRollPitchYaw ⟨1, 1, 0⟩ ⟨0, 1, 1⟩

noncomputable def shifted : Pose ℝ :=
  .ofRollPitchYaw ⟨0, 1, 1⟩ ⟨1, 0, 1⟩

theorem adjoint_representation_tilted : tilted.Rigid ∧ shifted.Rigid ∧
    (tilted.compose shifted).adjoint = tilted.adjoint.mul shifted.adjoint ∧ ∃ screw,
      Screw.turning? ⟨0, 3, 4⟩ ⟨1, 0, 1⟩ = some screw ∧
        Screw.turning? (tilted.rotation.rotate ⟨0, 3, 4⟩) (tilted.apply ⟨1, 0, 1⟩) =
          some (tilted.adjoint.mulScrew screw) := by
  have htilted : tilted.Rigid := rigid_ofRollPitchYaw _ _
  have hshifted : shifted.Rigid := rigid_ofRollPitchYaw _ _
  have hlong : Scalar.epsilon < (⟨0, 3, 4⟩ : Vec3 ℝ).norm := by
    apply Real.lt_sqrt_of_sq_lt
    simp only [Scalar.epsilon, Vec3.dot]
    norm_num
  obtain ⟨screw, hscrew⟩ : ∃ screw, Screw.turning? (⟨0, 3, 4⟩ : Vec3 ℝ) ⟨1, 0, 1⟩ = some screw :=
    ⟨_, Screw.turning?_eq_some_iff.mpr ⟨hlong, rfl⟩⟩
  obtain ⟨hcompose, -, -, hmoved⟩ := adjoint_representation htilted hshifted
  exact ⟨htilted, hshifted, hcompose, screw, hscrew, hmoved _ _ _ hscrew⟩

end Pose

end Linkage.Space
