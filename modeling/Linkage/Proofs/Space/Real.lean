import Linkage.Space.Mat3
import Mathlib.Analysis.SpecialFunctions.Complex.Arg
import Mathlib.Analysis.SpecialFunctions.Trigonometric.Inverse

namespace Linkage

-- Exact numbers. A direction is refused up to the same length as in binary64.
noncomputable instance : Scalar ℝ where
  sqrt := Real.sqrt
  sin := Real.sin
  cos := Real.cos
  asin := Real.arcsin
  atan2 y x := Complex.arg ⟨x, y⟩
  halfPi := Real.pi / 2
  epsilon := 1 / 2 ^ 52
  le x y := decide (x ≤ y)
  lt x y := decide (x < y)

namespace Scalar

theorem half_add (x y : ℝ) : half (x + y) = half x + half y :=
  add_div x y _

theorem two_mul_half (x : ℝ) : 2 * half x = x := by
  simp only [half]
  ring

theorem epsilon_pos : (0 : ℝ) < epsilon := by
  simp only [epsilon]
  norm_num

end Scalar

namespace Space

attribute [ext] Vec3 Mat3

namespace Vec3

theorem dot_self_nonneg (v : Vec3 ℝ) : 0 ≤ v.dot v := by
  simp only [dot]
  nlinarith [mul_self_nonneg v.x, mul_self_nonneg v.y, mul_self_nonneg v.z]

theorem norm_mul_self (v : Vec3 ℝ) : v.norm * v.norm = v.dot v :=
  Real.mul_self_sqrt v.dot_self_nonneg

theorem strictDirection?_eq_some_iff {v direction : Vec3 ℝ} :
    v.strictDirection? = some direction ↔
      Scalar.epsilon * Scalar.epsilon < v.dot v ∧ direction = v.shrink v.norm := by
  simp [strictDirection?, Scalar.lt, eq_comm]

-- What is shrunk by its own length has length one.
theorem dot_shrink_norm {v : Vec3 ℝ} (hv : 0 < v.dot v) :
    (v.shrink v.norm).dot (v.shrink v.norm) = 1 := by
  have hne : v.norm ≠ 0 := by
    intro hzero
    have hsquare := v.norm_mul_self
    rw [hzero, mul_zero] at hsquare
    exact hv.ne hsquare
  have hsquare := v.norm_mul_self
  simp only [dot, shrink] at hsquare ⊢
  field_simp
  linarith

theorem dot_self_of_strictDirection? {v direction : Vec3 ℝ}
    (h : v.strictDirection? = some direction) : direction.dot direction = 1 := by
  obtain ⟨hlong, rfl⟩ := strictDirection?_eq_some_iff.mp h
  apply dot_shrink_norm
  exact (mul_self_nonneg Scalar.epsilon).trans_lt hlong

theorem norm_eq_one {v : Vec3 ℝ} (h : v.dot v = 1) : v.norm = 1 := by
  change Real.sqrt (v.dot v) = 1
  rw [h, Real.sqrt_one]

-- A direction is its own direction.
theorem direction?_eq_self {v : Vec3 ℝ} (h : v.dot v = 1) : v.direction? = some v := by
  have hshort : Scalar.le (1 : ℝ) Scalar.epsilon = false := by
    simp only [Scalar.le, Scalar.epsilon, decide_eq_false_iff_not, not_le]
    norm_num
  have hshrink : v.shrink 1 = v := by
    ext <;> simp [shrink]
  rw [direction?, norm_eq_one h, hshort, hshrink]
  rfl

theorem norm_nonneg (v : Vec3 ℝ) : 0 ≤ v.norm :=
  Real.sqrt_nonneg _

-- The two tests of a length agree, though one is of its square.
theorem epsilon_lt_norm_iff (v : Vec3 ℝ) :
    Scalar.epsilon < v.norm ↔ Scalar.epsilon * Scalar.epsilon < v.dot v := by
  rw [← norm_mul_self, mul_self_lt_mul_self_iff Scalar.epsilon_pos.le v.norm_nonneg]

theorem epsilon_lt_norm_of_dot {v : Vec3 ℝ} (h : 1 ≤ v.dot v) : Scalar.epsilon < v.norm := by
  have hshort : (Scalar.epsilon * Scalar.epsilon : ℝ) < 1 := by
    simp only [Scalar.epsilon]
    norm_num
  exact (epsilon_lt_norm_iff v).mpr (hshort.trans_le h)

theorem norm_scale {factor : ℝ} (hfactor : 0 ≤ factor) (v : Vec3 ℝ) :
    (v.scale factor).norm = factor * v.norm := by
  have hsquare : (v.scale factor).dot (v.scale factor) = (factor * v.norm) * (factor * v.norm) := by
    rw [mul_mul_mul_comm, norm_mul_self]
    simp only [dot, scale]
    ring
  change Real.sqrt ((v.scale factor).dot (v.scale factor)) = _
  rw [hsquare, Real.sqrt_mul_self (mul_nonneg hfactor v.norm_nonneg)]

theorem shrink_scale {factor : ℝ} (hfactor : factor ≠ 0) (v : Vec3 ℝ) (divisor : ℝ) :
    (v.scale factor).shrink (factor * divisor) = v.shrink divisor := by
  ext <;> simp only [shrink, scale, mul_comm factor] <;> exact mul_div_mul_right _ _ hfactor

-- A longer or a shorter axis has the same direction, as long as it is not too short to have one.
theorem strictDirection?_scale {factor : ℝ} {v : Vec3 ℝ}
    (hscaled : Scalar.epsilon < factor * v.norm) :
    (v.scale factor).strictDirection? = some (v.shrink v.norm) := by
  have hfactor : 0 < factor :=
    pos_of_mul_pos_left (Scalar.epsilon_pos.trans hscaled) v.norm_nonneg
  have hnorm := norm_scale hfactor.le v
  refine strictDirection?_eq_some_iff.mpr ⟨(epsilon_lt_norm_iff _).mp (hnorm ▸ hscaled), ?_⟩
  rw [hnorm, shrink_scale hfactor.ne']

end Vec3

end Space

end Linkage
