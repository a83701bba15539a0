import Mathlib.Analysis.SpecialFunctions.Complex.Arg
import Linkage.Proofs.Space.RollPitchYaw

namespace Linkage.Space

-- The sine and the cosine of the angle towards a place at distance one.
theorem sin_atan2 {x y : ℝ} (h : x * x + y * y = 1) : Real.sin (Scalar.atan2 y x) = y := by
  have hnorm : ‖(⟨x, y⟩ : ℂ)‖ = 1 := by
    rw [Complex.norm_def, Complex.normSq_mk, h, Real.sqrt_one]
  change Real.sin (Complex.arg ⟨x, y⟩) = y
  rw [Complex.sin_arg, hnorm, div_one]

theorem cos_atan2 {x y : ℝ} (h : x * x + y * y = 1) : Real.cos (Scalar.atan2 y x) = x := by
  have hnorm : ‖(⟨x, y⟩ : ℂ)‖ = 1 := by
    rw [Complex.norm_def, Complex.normSq_mk, h, Real.sqrt_one]
  have hne : (⟨x, y⟩ : ℂ) ≠ 0 := norm_ne_zero_iff.mp (hnorm ▸ one_ne_zero)
  change Real.cos (Complex.arg ⟨x, y⟩) = x
  rw [Complex.cos_arg hne, hnorm, div_one]

namespace Mat3

theorem mul_assoc (a b c : Mat3 ℝ) : (a.mul b).mul c = a.mul (b.mul c) := by
  apply ext_mulVec
  intro v
  simp only [mulVec_mul]

theorem diagonal_one_mul (m : Mat3 ℝ) : (diagonal 1).mul m = m := by
  apply ext_mulVec
  intro v
  rw [mulVec_mul, diagonal_one_mulVec]

theorem mul_diagonal_one (m : Mat3 ℝ) : m.mul (diagonal 1) = m := by
  apply ext_mulVec
  intro v
  rw [mulVec_mul, diagonal_one_mulVec]

def det {α : Type} [Scalar α] (m : Mat3 α) : α :=
  m.first.dot (m.second.cross m.third)

def cofactors {α : Type} [Scalar α] (m : Mat3 α) : Mat3 α :=
  ⟨m.second.cross m.third, m.third.cross m.first, m.first.cross m.second⟩

theorem mul_transpose_cofactors (m : Mat3 ℝ) : m.mul m.cofactors.transpose = diagonal m.det := by
  ext <;> simp only [mul, cofactors, transpose, mulVec, diagonal, ofRows, det, Vec3.dot, Vec3.cross] <;> ring

-- The matrices of rotations. Their columns are directions at right angles to each other, in right-handed
-- order.
structure Proper (m : Mat3 ℝ) : Prop where
  transpose_mul : m.transpose.mul m = diagonal 1
  det_eq : m.det = 1

end Mat3

namespace Quat

theorem toMatrix_one : (one : Quat ℝ).toMatrix = .diagonal 1 := by
  ext <;> simp [one, toMatrix, Mat3.diagonal, Mat3.ofRows, Scalar.twice]

theorem det_toMatrix (a : Quat ℝ) : a.toMatrix.det = a.normSquared ^ 3 := by
  simp only [Mat3.det, toMatrix, Mat3.ofRows, normSquared, Vec3.dot, Vec3.cross, Scalar.twice]
  ring

theorem proper_toMatrix {a : Quat ℝ} (ha : a.normSquared = 1) : a.toMatrix.Proper := by
  constructor
  · rw [← toMatrix_conjugate, ← toMatrix_mul, conjugate_mul ha, toMatrix_one]
  · rw [det_toMatrix, ha, one_pow]

end Quat

namespace Mat3

variable {m n : Mat3 ℝ}

theorem proper_ofRollPitchYaw (angles : Vec3 ℝ) : (ofRollPitchYaw angles).Proper := by
  rw [← Quat.toMatrix_ofRollPitchYaw]
  exact Quat.proper_toMatrix (Quat.normSquared_ofRollPitchYaw _ _ _)

namespace Proper

theorem cofactors_eq (h : m.Proper) : m.cofactors = m := by
  have htranspose : m.cofactors.transpose = m.transpose := by
    calc
      m.cofactors.transpose = (m.transpose.mul m).mul m.cofactors.transpose := by
        rw [h.transpose_mul, diagonal_one_mul]
      _ = m.transpose := by
        rw [mul_assoc, mul_transpose_cofactors, h.det_eq, mul_diagonal_one]
  exact congrArg transpose htranspose

-- The rows are such directions as well.
theorem mul_transpose (h : m.Proper) : m.mul m.transpose = diagonal 1 := by
  have hproduct := m.mul_transpose_cofactors
  rwa [h.cofactors_eq, h.det_eq] at hproduct

theorem first_squares (h : m.Proper) :
    m.first.x * m.first.x + m.first.y * m.first.y + m.first.z * m.first.z = 1 :=
  congrArg (·.first.x) h.mul_transpose

theorem third_squares (h : m.Proper) :
    m.third.x * m.third.x + m.third.y * m.third.y + m.third.z * m.third.z = 1 :=
  congrArg (·.third.z) h.mul_transpose

theorem column_squares (h : m.Proper) :
    m.first.x * m.first.x + m.second.x * m.second.x + m.third.x * m.third.x = 1 :=
  congrArg (·.first.x) h.transpose_mul

theorem third_dot_first (h : m.Proper) :
    m.third.x * m.first.x + m.third.y * m.first.y + m.third.z * m.first.z = 0 :=
  congrArg (·.first.z) h.mul_transpose

theorem second_eq (h : m.Proper) : m.second = m.third.cross m.first :=
  (congrArg Mat3.second h.cofactors_eq).symm

theorem second_x (h : m.Proper) : m.second.x = m.third.y * m.first.z - m.third.z * m.first.y :=
  congrArg Vec3.x h.second_eq

-- The first and the third row make the second one.
theorem eq_of_rows (hm : m.Proper) (hn : n.Proper) (hfirst : m.first = n.first)
    (hthird : m.third = n.third) : m = n := by
  ext1
  · exact hfirst
  · rw [hm.second_eq, hn.second_eq, hfirst, hthird]
  · exact hthird

-- What is left of the first row solves two linear equations: it is at a right angle to the third row, and
-- makes the second one with it.
theorem first_y_mul (h : m.Proper) : (m.third.y * m.third.y + m.third.z * m.third.z) * m.first.y =
    -(m.first.x * m.third.x * m.third.y) - m.second.x * m.third.z := by
  linear_combination m.third.y * h.third_dot_first + m.third.z * h.second_x

theorem first_z_mul (h : m.Proper) : (m.third.y * m.third.y + m.third.z * m.third.z) * m.first.z =
    -(m.first.x * m.third.x * m.third.z) + m.second.x * m.third.y := by
  linear_combination m.third.z * h.third_dot_first - m.third.y * h.second_x

-- The third row and the first column make the rest, unless all of them is in their common entry.
theorem eq_of_edges (hm : m.Proper) (hn : n.Proper) (hthird : m.third = n.third)
    (hfirst : m.first.x = n.first.x) (hsecond : m.second.x = n.second.x)
    (hne : m.third.y * m.third.y + m.third.z * m.third.z ≠ 0) : m = n := by
  refine eq_of_rows hm hn ?_ hthird
  ext1
  · exact hfirst
  · apply mul_left_cancel₀ hne
    rw [hm.first_y_mul, hthird, hn.first_y_mul, hfirst, hsecond]
  · apply mul_left_cancel₀ hne
    rw [hm.first_z_mul, hthird, hn.first_z_mul, hfirst, hsecond]

theorem eq_zero_of_square (h : m.Proper) (hx : m.third.x * m.third.x = 1) :
    m.third.y = 0 ∧ m.third.z = 0 ∧ m.first.x = 0 := by
  have hthird := h.third_squares
  have hcolumn := h.column_squares
  refine ⟨?_, ?_, ?_⟩ <;> apply mul_self_eq_zero.mp <;> nlinarith

theorem square_le_one (h : m.Proper) : m.third.x * m.third.x ≤ 1 := by
  nlinarith [h.third_squares]

section Pitch

variable {pitch : ℝ} (h : m.Proper) (hx : m.third.x = -Real.sin pitch)

include h hx

-- Away from a quarter turn, the cosine of the pitch is how long the rest of the third row and of the first
-- column are.
theorem ofRollPitchYaw_of_sloping (hne : Real.cos pitch ≠ 0) :
    ofRollPitchYaw ⟨Scalar.atan2 (m.third.y / Real.cos pitch) (m.third.z / Real.cos pitch), pitch,
      Scalar.atan2 (m.second.x / Real.cos pitch) (m.first.x / Real.cos pitch)⟩ = m := by
  have hsquare : Real.cos pitch * Real.cos pitch = 1 - m.third.x * m.third.x := by
    rw [hx]
    linear_combination Real.sin_sq_add_cos_sq pitch
  have hroll : m.third.z / Real.cos pitch * (m.third.z / Real.cos pitch) +
      m.third.y / Real.cos pitch * (m.third.y / Real.cos pitch) = 1 := by
    field_simp
    linear_combination h.third_squares - hsquare
  have hyaw : m.first.x / Real.cos pitch * (m.first.x / Real.cos pitch) +
      m.second.x / Real.cos pitch * (m.second.x / Real.cos pitch) = 1 := by
    field_simp
    linear_combination h.column_squares - hsquare
  symm
  apply eq_of_edges h (proper_ofRollPitchYaw _)
  · rw [ofRollPitchYaw_eq]
    simp only [ofRows, sin_atan2 hroll, cos_atan2 hroll, mul_div_cancel₀ _ hne, ← hx]
  · rw [ofRollPitchYaw_eq]
    simp only [ofRows, cos_atan2 hyaw, div_mul_cancel₀ _ hne]
  · rw [ofRollPitchYaw_eq]
    simp only [ofRows, sin_atan2 hyaw, div_mul_cancel₀ _ hne]
  · have hpos := mul_self_pos.mpr hne
    linarith [h.third_squares]

-- At a quarter turn there is nothing left of them. The first row has room for the roll only, and it makes
-- the second one.
theorem ofRollPitchYaw_of_quarter (hcos : Real.cos pitch = 0) :
    ofRollPitchYaw ⟨Scalar.atan2 (Real.sin pitch * m.first.y) (Real.sin pitch * m.first.z), pitch, 0⟩ =
      m := by
  have hsquare : Real.sin pitch * Real.sin pitch = 1 := by
    linear_combination Real.sin_sq_add_cos_sq pitch - Real.cos pitch * hcos
  obtain ⟨hy, hz, hfirst⟩ := h.eq_zero_of_square (by rw [hx, neg_mul_neg, hsquare])
  have hroll : Real.sin pitch * m.first.z * (Real.sin pitch * m.first.z) +
      Real.sin pitch * m.first.y * (Real.sin pitch * m.first.y) = 1 := by
    linear_combination h.first_squares - m.first.x * hfirst + (m.first.z * m.first.z + m.first.y * m.first.y) * hsquare
  symm
  apply eq_of_rows h (proper_ofRollPitchYaw _)
  · rw [ofRollPitchYaw_eq]
    ext1 <;> simp only [ofRows, hcos, Real.sin_zero, Real.cos_zero, sin_atan2 hroll, cos_atan2 hroll]
    · linear_combination hfirst
    · linear_combination -m.first.y * hsquare
    · linear_combination -m.first.z * hsquare
  · rw [ofRollPitchYaw_eq]
    ext1 <;> simp only [ofRows, hcos]
    · exact hx
    · linear_combination hy
    · linear_combination hz

end Pitch

end Proper

theorem rollPitchYaw_of_sloping (hlow : -1 < m.third.x) (hhigh : m.third.x < 1) :
    m.rollPitchYaw = ⟨Scalar.atan2 (m.third.y / Real.cos (-Real.arcsin m.third.x))
        (m.third.z / Real.cos (-Real.arcsin m.third.x)), -Real.arcsin m.third.x,
      Scalar.atan2 (m.second.x / Real.cos (-Real.arcsin m.third.x))
        (m.first.x / Real.cos (-Real.arcsin m.third.x))⟩ := by
  simp [rollPitchYaw, Scalar.lt, Scalar.asin, Scalar.cos, hlow, hhigh]

theorem rollPitchYaw_of_down (hx : m.third.x = -1) :
    m.rollPitchYaw = ⟨Scalar.atan2 m.first.y m.first.z, Real.pi / 2, 0⟩ := by
  simp [rollPitchYaw, Scalar.lt, Scalar.le, Scalar.halfPi, hx]

theorem rollPitchYaw_of_up (hx : m.third.x = 1) :
    m.rollPitchYaw = ⟨Scalar.atan2 (-m.first.y) (-m.first.z), -(Real.pi / 2), 0⟩ := by
  have hdown : ¬(1 : ℝ) ≤ -1 := by norm_num
  simp [rollPitchYaw, Scalar.lt, Scalar.le, Scalar.halfPi, hx, hdown]

-- The angles that are read off a rotation make it again.
theorem Proper.ofRollPitchYaw_rollPitchYaw (h : m.Proper) : ofRollPitchYaw m.rollPitchYaw = m := by
  have hle := h.square_le_one
  rcases le_or_gt m.third.x (-1) with hdown | hlow
  · have hx : m.third.x = -1 := by nlinarith
    have hquarter := h.ofRollPitchYaw_of_quarter (by rw [hx, Real.sin_pi_div_two]) Real.cos_pi_div_two
    rw [rollPitchYaw_of_down hx]
    simpa only [Real.sin_pi_div_two, one_mul] using hquarter
  · rcases lt_or_ge m.third.x 1 with hhigh | hup
    · have hsin : Real.sin (-Real.arcsin m.third.x) = -m.third.x := by
        rw [Real.sin_neg, Real.sin_arcsin hlow.le hhigh.le]
      have hcos : 0 < Real.cos (-Real.arcsin m.third.x) := by
        rw [Real.cos_neg, Real.cos_arcsin, Real.sqrt_pos]
        nlinarith
      rw [rollPitchYaw_of_sloping hlow hhigh]
      exact h.ofRollPitchYaw_of_sloping (by rw [hsin, neg_neg]) hcos.ne'
    · have hx : m.third.x = 1 := by nlinarith
      have hsin : Real.sin (-(Real.pi / 2)) = -1 := by rw [Real.sin_neg, Real.sin_pi_div_two]
      have hcos : Real.cos (-(Real.pi / 2)) = 0 := by rw [Real.cos_neg, Real.cos_pi_div_two]
      have hquarter := h.ofRollPitchYaw_of_quarter (by rw [hx, hsin, neg_neg]) hcos
      rw [rollPitchYaw_of_up hx]
      simpa only [hsin, neg_one_mul] using hquarter

end Mat3

end Linkage.Space
