import Linkage.Proofs.Space.Adjoint

namespace Linkage.Space

namespace Vec3

theorem add_right_cancel {u v w : Vec3 ℝ} (h : u.add w = v.add w) : u = v := by
  simp only [add, mk.injEq, add_left_inj] at h
  obtain ⟨hx, hy, hz⟩ := h
  exact Vec3.ext hx hy hz

theorem scale_eq_zero_iff {factor : ℝ} (hfactor : factor ≠ 0) (v : Vec3 ℝ) :
    v.scale factor = zero ↔ v = zero := by
  simp [Vec3.ext_iff, scale, zero, hfactor]

theorem scale_shrink_norm {v : Vec3 ℝ} (hv : 0 < v.norm) : (v.shrink v.norm).scale v.norm = v := by
  ext <;> simp only [shrink, scale] <;> exact div_mul_cancel₀ _ hv.ne'

-- Two axes have the same direction just if one of them is a positive multiple of the other.
theorem shrink_norm_eq_iff {u v : Vec3 ℝ} (hu : 0 < u.norm) (hv : 0 < v.norm) :
    u.shrink u.norm = v.shrink v.norm ↔ ∃ factor, 0 < factor ∧ v = u.scale factor := by
  constructor
  · intro hsame
    refine ⟨v.norm / u.norm, div_pos hv hu, ?_⟩
    calc
      v = (v.shrink v.norm).scale v.norm := (scale_shrink_norm hv).symm
      _ = (u.shrink u.norm).scale v.norm := by rw [hsame]
      _ = u.scale (v.norm / u.norm) := by
        ext <;> simp only [shrink, scale] <;> ring
  · rintro ⟨factor, hfactor, rfl⟩
    rw [norm_scale hfactor.le, shrink_scale hfactor.ne']

end Vec3

namespace Screw

-- How fast a place moves along a screw.
def velocityAt {α : Type} [Scalar α] (screw : Screw α) (place : Vec3 α) : Vec3 α :=
  screw.linear.add (screw.angular.cross place)

-- A turn at unit rate about the line through a point along an axis, in the sense of the axis and
-- without a shift along it. The line is what stays where it is.
structure TurnsAbout (screw : Screw ℝ) (axis point : Vec3 ℝ) : Prop where
  unit : screw.angular.norm = 1
  heading : screw.angular.scale axis.norm = axis
  pitchless : screw.angular.dot screw.linear = 0
  rests : screw.velocityAt point = .zero
  rests_iff : ∀ place, screw.velocityAt place = .zero ↔ (point.add place.neg).cross axis = .zero

-- A screw is known by how it turns and by one place that it leaves where it is.
theorem eq_iff_of_rests {screw other : Screw ℝ} {place : Vec3 ℝ} (hrests : other.velocityAt place = .zero) :
    screw = other ↔ screw.angular = other.angular ∧ screw.velocityAt place = .zero := by
  constructor
  · rintro rfl
    exact ⟨rfl, hrests⟩
  · rintro ⟨hangular, hplace⟩
    ext1
    · exact hangular
    · apply Vec3.add_right_cancel
      calc
        screw.linear.add (other.angular.cross place) = screw.velocityAt place := by
          rw [velocityAt, hangular]
        _ = other.linear.add (other.angular.cross place) := hplace.trans hrests.symm

theorem velocityAt_turning (direction point place : Vec3 ℝ) :
    velocityAt ⟨direction, (direction.cross point).neg⟩ place =
      (point.add place.neg).cross direction := by
  ext <;> simp only [velocityAt, Vec3.add, Vec3.neg, Vec3.cross] <;> ring

theorem turnsAbout_of_turning? {axis point : Vec3 ℝ} {screw : Screw ℝ}
    (h : turning? axis point = some screw) : screw.TurnsAbout axis point := by
  obtain ⟨hlong, rfl⟩ := turning?_eq_some_iff.mp h
  have hpos : 0 < axis.norm := Scalar.epsilon_pos.trans hlong
  have hheading := Vec3.scale_shrink_norm hpos
  exact {
    unit := by
      apply Vec3.norm_eq_one
      apply Vec3.dot_shrink_norm
      exact axis.norm_mul_self ▸ mul_pos hpos hpos
    heading := hheading
    pitchless := by
      simp only [Vec3.dot, Vec3.neg, Vec3.cross]
      ring
    rests := by
      rw [velocityAt_turning]
      ext <;> simp only [Vec3.add, Vec3.neg, Vec3.cross, Vec3.zero] <;> ring
    rests_iff := by
      intro place
      have hscaled : (point.add place.neg).cross axis =
          ((point.add place.neg).cross (axis.shrink axis.norm)).scale axis.norm := by
        conv_lhs => rw [← hheading]
        ext <;> simp only [Vec3.cross, Vec3.scale] <;> ring
      rw [velocityAt_turning, hscaled, Vec3.scale_eq_zero_iff hpos.ne'] }

theorem exists_turning? {axis : Vec3 ℝ} (hlong : Scalar.epsilon < axis.norm) (point : Vec3 ℝ) :
    ∃ screw, turning? axis point = some screw :=
  ⟨_, turning?_eq_some_iff.mpr ⟨hlong, rfl⟩⟩

theorem angular_of_turning? {axis point : Vec3 ℝ} {screw : Screw ℝ}
    (h : turning? axis point = some screw) : screw.angular = axis.shrink axis.norm := by
  obtain ⟨-, rfl⟩ := turning?_eq_some_iff.mp h
  rfl

-- There is a screw for each axis that is long enough, and two of them are the same just if the axes
-- have one direction and their points lie on one line along it.
theorem turning?_line {axis other : Vec3 ℝ} (haxis : Scalar.epsilon < axis.norm)
    (hother : Scalar.epsilon < other.norm) (point place : Vec3 ℝ) : ∃ first second,
      turning? axis point = some first ∧ turning? other place = some second ∧
      first.TurnsAbout axis point ∧ second.TurnsAbout other place ∧
      (first = second ↔ (∃ factor, 0 < factor ∧ other = axis.scale factor) ∧
        (point.add place.neg).cross axis = .zero) := by
  obtain ⟨first, hfirst⟩ := exists_turning? haxis point
  obtain ⟨second, hsecond⟩ := exists_turning? hother place
  have hturns := turnsAbout_of_turning? hfirst
  have hturns' := turnsAbout_of_turning? hsecond
  refine ⟨first, second, hfirst, hsecond, hturns, hturns', ?_⟩
  have hdirection : first.angular = second.angular ↔ ∃ factor, 0 < factor ∧ other = axis.scale factor := by
    rw [angular_of_turning? hfirst, angular_of_turning? hsecond]
    exact Vec3.shrink_norm_eq_iff (Scalar.epsilon_pos.trans haxis) (Scalar.epsilon_pos.trans hother)
  rw [eq_iff_of_rests hturns'.rests, hturns.rests_iff, hdirection]

-- A hinge, the same with a longer axis and another point on its line, and the one that turns back.
theorem turning?_line_hinge : Scalar.epsilon < (⟨0, 3, 4⟩ : Vec3 ℝ).norm ∧
    Scalar.epsilon < (⟨0, 6, 8⟩ : Vec3 ℝ).norm ∧ Scalar.epsilon < (⟨0, -3, -4⟩ : Vec3 ℝ).norm ∧
    turning? (⟨0, 3, 4⟩ : Vec3 ℝ) ⟨1, 0, 1⟩ = turning? ⟨0, 6, 8⟩ ⟨1, 3, 5⟩ ∧
    turning? (⟨0, 3, 4⟩ : Vec3 ℝ) ⟨1, 0, 1⟩ ≠ turning? ⟨0, -3, -4⟩ ⟨1, 0, 1⟩ := by
  have hlong : Scalar.epsilon < (⟨0, 3, 4⟩ : Vec3 ℝ).norm := by
    apply Vec3.epsilon_lt_norm_of_dot
    norm_num [Vec3.dot]
  have hlonger : Scalar.epsilon < (⟨0, 6, 8⟩ : Vec3 ℝ).norm := by
    apply Vec3.epsilon_lt_norm_of_dot
    norm_num [Vec3.dot]
  have hback : Scalar.epsilon < (⟨0, -3, -4⟩ : Vec3 ℝ).norm := by
    apply Vec3.epsilon_lt_norm_of_dot
    norm_num [Vec3.dot]
  obtain ⟨first, second, hfirst, hsecond, -, -, hsame⟩ :=
    turning?_line hlong hlonger ⟨1, 0, 1⟩ ⟨1, 3, 5⟩
  obtain ⟨again, back, hagain, hturned, -, -, hdiffer⟩ :=
    turning?_line hlong hback ⟨1, 0, 1⟩ ⟨1, 0, 1⟩
  refine ⟨hlong, hlonger, hback, ?_, ?_⟩
  · rw [hfirst, hsecond, hsame.mpr ⟨⟨2, by norm_num, ?_⟩, ?_⟩]
    · ext <;> simp only [Vec3.scale] <;> norm_num
    · ext <;> simp only [Vec3.add, Vec3.neg, Vec3.cross, Vec3.zero] <;> norm_num
  · rw [hagain, hturned, ne_eq, Option.some.injEq, hdiffer]
    rintro ⟨⟨factor, hfactor, hopposite⟩, -⟩
    have hy := congrArg Vec3.y hopposite
    simp only [Vec3.scale] at hy
    linarith

end Screw

end Linkage.Space
