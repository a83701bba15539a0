import Linkage.Proofs.Body.Screw
import Linkage.Proofs.Space.Extended

namespace Linkage

open Body Space

namespace Extended

def IsFinite : Extended → Prop
  | finite _ _ => True
  | _ => False

-- A square, or a sum of squares, as far as it is a number.
def Nonneg (a : Extended) : Prop :=
  a = infinite false ∨ ∃ x, 0 ≤ x ∧ a = ofReal x

theorem ofReal_inj {x y : ℝ} (hx : |x| ≤ largest) (hy : |y| ≤ largest) :
    ofReal x = ofReal y ↔ x = y := by
  rw [ofReal_of_le hx, ofReal_of_le hy, finite.injEq]

theorem isFinite_ofReal {x : ℝ} (h : |x| ≤ largest) : (ofReal x).IsFinite := by
  rw [ofReal_of_le h]
  trivial

theorem IsFinite.exists_eq {a : Extended} (h : a.IsFinite) : ∃ x, |x| ≤ largest ∧ a = ofReal x := by
  cases a with
  | nan => exact h.elim
  | infinite s => exact h.elim
  | finite x hx => exact ⟨x, hx, (ofReal_of_le hx).symm⟩

theorem abs_zero_le : |(0 : ℝ)| ≤ largest := by
  rw [abs_zero]
  exact zero_le_one.trans one_le_largest

theorem abs_one_le : |(1 : ℝ)| ≤ largest :=
  abs_one.trans_le one_le_largest

theorem abs_epsilon_le : |(Scalar.epsilon : ℝ)| ≤ largest := by
  refine le_trans ?_ one_le_largest
  simp only [Scalar.epsilon]
  norm_num

theorem abs_epsilon_mul_epsilon_le : |(Scalar.epsilon * Scalar.epsilon : ℝ)| ≤ largest := by
  refine le_trans ?_ one_le_largest
  simp only [Scalar.epsilon]
  norm_num

theorem epsilon_mul_epsilon :
    (Scalar.epsilon : Extended) * Scalar.epsilon = ofReal (Scalar.epsilon * Scalar.epsilon) :=
  ofReal_mul abs_epsilon_le abs_epsilon_le

section Nonneg

variable {a b : Extended}

theorem nonneg_mul_self (h : a ≠ nan) : Nonneg (a * a) := by
  cases a with
  | nan => exact absurd rfl h
  | infinite s => exact .inl (by cases s <;> rfl)
  | finite x hx => exact .inr ⟨x * x, mul_self_nonneg x, rfl⟩

theorem Nonneg.infinite_or (h : Nonneg a) : a = infinite false ∨ ∃ x hx, a = finite x hx := by
  obtain rfl | ⟨x, hx, rfl⟩ := h
  · exact .inl rfl
  · rcases ofReal_of_nonneg hx with hx | ⟨hle, hx⟩
    · exact .inl hx
    · exact .inr ⟨x, hle, hx⟩

theorem Nonneg.infinite_add (h : Nonneg a) : infinite false + a = infinite false := by
  obtain rfl | ⟨x, hx, rfl⟩ := h.infinite_or <;> rfl

theorem Nonneg.add_infinite (h : Nonneg a) : a + infinite false = infinite false := by
  obtain rfl | ⟨x, hx, rfl⟩ := h.infinite_or <;> rfl

theorem Nonneg.add (h : Nonneg a) (h' : Nonneg b) : Nonneg (a + b) := by
  obtain rfl | ⟨x, hx, rfl⟩ := h
  · exact .inl h'.infinite_add
  · obtain rfl | ⟨y, hy, rfl⟩ := h'
    · exact .inl (Nonneg.add_infinite (.inr ⟨x, hx, rfl⟩))
    · exact .inr ⟨x + y, add_nonneg hx hy, ofReal_add_of_nonneg hx hy⟩

end Nonneg

theorem sqrt_ofReal {x : ℝ} (hx : 0 ≤ x) (hle : x ≤ largest) :
    Scalar.sqrt (ofReal x) = ofReal (Real.sqrt x) := by
  rw [ofReal_of_le (by rwa [abs_of_nonneg hx])]
  exact if_neg (not_lt.mpr hx)

theorem lt_ofReal {x y : ℝ} (hx : |x| ≤ largest) (hy : |y| ≤ largest) :
    Scalar.lt (ofReal x) (ofReal y) = decide (x < y) := by
  rw [ofReal_of_le hx, ofReal_of_le hy]
  rfl

theorem le_ofReal {x y : ℝ} (hx : |x| ≤ largest) (hy : |y| ≤ largest) :
    Scalar.le (ofReal x) (ofReal y) = decide (x ≤ y) := by
  rw [ofReal_of_le hx, ofReal_of_le hy]
  rfl

theorem not_infinite_le_epsilon : Scalar.le (infinite false) Scalar.epsilon = false := by
  change Scalar.le (infinite false) (ofReal Scalar.epsilon) = false
  rw [ofReal_of_le abs_epsilon_le]
  rfl

theorem epsilon_lt_infinite :
    Scalar.lt (Scalar.epsilon * Scalar.epsilon) (infinite false) = true := by
  rw [epsilon_mul_epsilon, ofReal_of_le abs_epsilon_mul_epsilon_le]
  rfl

end Extended

namespace Space.Vec3

open Extended

def HasNan (v : Vec3 Extended) : Prop :=
  v.x = nan ∨ v.y = nan ∨ v.z = nan

def HasInfinite (v : Vec3 Extended) : Prop :=
  ∃ negative, v.x = infinite negative ∨ v.y = infinite negative ∨ v.z = infinite negative

def IsFinite (v : Vec3 Extended) : Prop :=
  v.x.IsFinite ∧ v.y.IsFinite ∧ v.z.IsFinite

theorem isFinite_or (v : Vec3 Extended) : v.HasNan ∨ (¬v.HasNan ∧ v.HasInfinite) ∨ v.IsFinite := by
  obtain ⟨x, y, z⟩ := v
  cases x <;> cases y <;> cases z <;> simp [HasNan, HasInfinite, IsFinite, Extended.IsFinite]

theorem IsFinite.exists_eq {v : Vec3 Extended} (h : v.IsFinite) :
    ∃ u : Vec3 ℝ, u.Within largest ∧ v = u.map ofReal := by
  obtain ⟨hx, hy, hz⟩ := h
  obtain ⟨x, hx, hvx⟩ := hx.exists_eq
  obtain ⟨y, hy, hvy⟩ := hy.exists_eq
  obtain ⟨z, hz, hvz⟩ := hz.exists_eq
  exact ⟨⟨x, y, z⟩, ⟨hx, hy, hz⟩, Vec3.ext hvx hvy hvz⟩

variable {v : Vec3 Extended}

theorem HasNan.dot_self (h : v.HasNan) : v.dot v = nan := by
  rcases h with h | h | h <;> simp [dot, h]

theorem HasInfinite.dot_self (h : v.HasInfinite) (hnan : ¬v.HasNan) : v.dot v = infinite false := by
  simp only [HasNan, not_or] at hnan
  obtain ⟨hx, hy, hz⟩ := hnan
  have hx := nonneg_mul_self hx
  have hy := nonneg_mul_self hy
  have hz := nonneg_mul_self hz
  have hsquare : ∀ negative, infinite negative * infinite negative = infinite false := by
    intro negative
    cases negative <;> rfl
  obtain ⟨negative, h | h | h⟩ := h
  · rw [dot, h, hsquare, hy.infinite_add, hz.infinite_add]
  · rw [dot, h, hsquare, hx.add_infinite, hz.infinite_add]
  · rw [dot, h, hsquare, (hx.add hy).add_infinite]

theorem dot_self_map {u : Vec3 ℝ} (hu : u.Within largest) :
    (u.map ofReal).dot (u.map ofReal) = ofReal (u.dot u) := by
  simp only [dot, map]
  rw [ofReal_mul hu.1 hu.1, ofReal_mul hu.2.1 hu.2.1, ofReal_mul hu.2.2 hu.2.2,
    ofReal_add_of_nonneg (mul_self_nonneg _) (mul_self_nonneg _),
    ofReal_add_of_nonneg (add_nonneg (mul_self_nonneg _) (mul_self_nonneg _)) (mul_self_nonneg _)]

theorem shrink_nan (v : Vec3 Extended) : v.shrink nan = ⟨nan, nan, nan⟩ := by
  simp [shrink]

theorem HasInfinite.hasNan_shrink (h : v.HasInfinite) : (v.shrink (infinite false)).HasNan := by
  obtain ⟨negative, h | h | h⟩ := h
  · exact .inl (by rw [shrink, h]; rfl)
  · exact .inr (.inl (by rw [shrink, h]; rfl))
  · exact .inr (.inr (by rw [shrink, h]; rfl))

theorem shrink_infinite_map {u : Vec3 ℝ} (hu : u.Within largest) :
    (u.map ofReal).shrink (infinite false) = zero := by
  simp only [shrink, map, ofReal_of_le hu.1, ofReal_of_le hu.2.1, ofReal_of_le hu.2.2]
  rfl

theorem shrink_map {u : Vec3 ℝ} (hu : u.Within largest) {d : ℝ}
    (hd : |d| ≤ largest) (hne : d ≠ 0) : (u.map ofReal).shrink (ofReal d) = (u.shrink d).map ofReal := by
  simp only [shrink, map, ofReal_div hu.1 hd hne, ofReal_div hu.2.1 hd hne, ofReal_div hu.2.2 hd hne,
    div_eq_mul_inv]

theorem norm_map {u : Vec3 ℝ} (hu : u.Within largest)
    (hfits : u.dot u ≤ largest) : (u.map ofReal).norm = ofReal u.norm ∧ |u.norm| ≤ largest := by
  constructor
  · rw [norm, dot_self_map hu, sqrt_ofReal u.dot_self_nonneg hfits]
    rfl
  · rw [abs_of_nonneg u.norm_nonneg]
    apply Real.sqrt_le_iff.mpr
    have hone := one_le_largest
    exact ⟨by linarith, by nlinarith⟩

-- What becomes of an axis as the direction of a screw, and as that of a joint. The first test of its
-- length lets pass what is no number, the second one does not, and both let pass what is infinite.
inductive Heading (axis : Vec3 Extended) :
    Option (Vec3 Extended) → Option (Vec3 Extended) → Prop where
  | short : (axis.dot axis).IsFinite →
      Scalar.lt (Scalar.epsilon * Scalar.epsilon) (axis.dot axis) = false → Heading axis none none
  | straight {direction : Vec3 ℝ} : (axis.dot axis).IsFinite →
      Scalar.lt (Scalar.epsilon * Scalar.epsilon) (axis.dot axis) = true →
      direction.dot direction = 1 →
        Heading axis (some (direction.map ofReal)) (some (direction.map ofReal))
  | overlong : axis.IsFinite → ¬(axis.dot axis).IsFinite → Heading axis (some zero) (some zero)
  | endless {direction : Vec3 Extended} : axis.HasInfinite → ¬axis.HasNan → direction.HasNan →
      Heading axis (some direction) (some direction)
  | unknown {direction : Vec3 Extended} : axis.HasNan → direction.HasNan →
      Heading axis (some direction) none

theorem directions_of_dot_infinite (h : v.dot v = infinite false) :
    v.direction? = some (v.shrink (infinite false)) ∧
      v.strictDirection? = some (v.shrink (infinite false)) := by
  have hnorm : v.norm = infinite false := by
    rw [norm, h]
    rfl
  simp only [direction?, strictDirection?, hnorm, h, not_infinite_le_epsilon, epsilon_lt_infinite,
    Bool.false_eq_true, if_false, if_true, and_self]

theorem dot_self_le {u : Vec3 ℝ} (hu : u.Within largest)
    (hfinite : ((u.map ofReal).dot (u.map ofReal)).IsFinite) : u.dot u ≤ largest := by
  rw [dot_self_map hu] at hfinite
  by_contra hlarge
  rw [ofReal_of_lt (not_le.mp hlarge)] at hfinite
  exact hfinite

theorem IsFinite.directions_of_overlong (h : v.IsFinite) (hover : ¬(v.dot v).IsFinite) :
    v.direction? = some zero ∧ v.strictDirection? = some zero := by
  obtain ⟨u, hu, rfl⟩ := h.exists_eq
  have hdot := dot_self_map hu
  rw [hdot] at hover
  have hlarge : largest < u.dot u := by
    by_contra hle
    exact hover (isFinite_ofReal (by rwa [abs_of_nonneg u.dot_self_nonneg, ← not_lt]))
  obtain ⟨hdirection, hstrict⟩ := directions_of_dot_infinite (hdot.trans (ofReal_of_lt hlarge))
  rw [hdirection, hstrict, shrink_infinite_map hu]
  exact ⟨rfl, rfl⟩

theorem HasNan.directions (h : v.HasNan) :
    v.direction? = some ⟨nan, nan, nan⟩ ∧ v.strictDirection? = none := by
  have hdot := h.dot_self
  have hnorm : v.norm = nan := by
    rw [norm, hdot]
    rfl
  have hle : Scalar.le nan Scalar.epsilon = false := rfl
  have hlt : Scalar.lt (Scalar.epsilon * Scalar.epsilon) nan = false := by
    rw [epsilon_mul_epsilon, ofReal_of_le abs_epsilon_mul_epsilon_le]
    rfl
  simp only [direction?, strictDirection?, hnorm, hdot, hle, hlt, shrink_nan, Bool.false_eq_true,
    if_false, and_self]

-- As long as the square of its length can be told, an axis is judged as in exact arithmetic.
theorem directions_map {u : Vec3 ℝ} (hu : u.Within largest)
    (hfits : u.dot u ≤ largest) :
    (u.map ofReal).direction? = u.direction?.map (map ofReal) ∧
      (u.map ofReal).strictDirection? = u.direction?.map (map ofReal) ∧
      Scalar.lt (Scalar.epsilon * Scalar.epsilon) ((u.map ofReal).dot (u.map ofReal)) =
        u.direction?.isSome := by
  obtain ⟨hnorm, hle⟩ := norm_map hu hfits
  have hdot : |u.dot u| ≤ largest := by rwa [abs_of_nonneg u.dot_self_nonneg]
  have hshort : Scalar.le (ofReal u.norm) Scalar.epsilon = decide (u.norm ≤ Scalar.epsilon) :=
    le_ofReal hle abs_epsilon_le
  have hlong : Scalar.lt (Scalar.epsilon * Scalar.epsilon) (ofReal (u.dot u)) =
      decide (Scalar.epsilon < u.norm) := by
    rw [epsilon_mul_epsilon, lt_ofReal abs_epsilon_mul_epsilon_le hdot]
    exact decide_eq_decide.mpr (epsilon_lt_norm_iff u).symm
  have hexact : Scalar.le u.norm Scalar.epsilon = decide (u.norm ≤ Scalar.epsilon) := rfl
  simp only [direction?, strictDirection?, hnorm, dot_self_map hu, hshort, hlong, hexact, decide_eq_true_eq]
  by_cases h : Scalar.epsilon < u.norm
  · have hshrink := shrink_map hu hle (Scalar.epsilon_pos.trans h).ne'
    simp only [not_le.mpr h, h, hshrink, if_false, if_true, decide_true, Option.map_some,
      Option.isSome_some, and_self]
  · simp only [not_lt.mp h, h, if_false, if_true, decide_false, Option.map_none, Option.isSome_none,
      and_self]

theorem dot_self_of_direction? {u direction : Vec3 ℝ} (h : u.direction? = some direction) :
    direction.dot direction = 1 := by
  simp only [direction?, Scalar.le, decide_eq_true_eq, Option.ite_none_left_eq_some, not_le,
    Option.some.injEq] at h
  obtain ⟨hlong, rfl⟩ := h
  exact dot_shrink_norm ((mul_self_nonneg Scalar.epsilon).trans_lt ((epsilon_lt_norm_iff u).mp hlong))

theorem heading (axis : Vec3 Extended) : Heading axis axis.direction? axis.strictDirection? := by
  rcases axis.isFinite_or with hnan | ⟨hnan, hinfinite⟩ | hfinite
  · obtain ⟨hdirection, hstrict⟩ := hnan.directions
    rw [hdirection, hstrict]
    exact .unknown hnan (.inl rfl)
  · obtain ⟨hdirection, hstrict⟩ := directions_of_dot_infinite (hinfinite.dot_self hnan)
    rw [hdirection, hstrict]
    exact .endless hinfinite hnan hinfinite.hasNan_shrink
  · by_cases hfits : (axis.dot axis).IsFinite
    · obtain ⟨u, hu, rfl⟩ := hfinite.exists_eq
      obtain ⟨hdirection, hstrict, hlong⟩ := directions_map hu (dot_self_le hu hfits)
      rw [hdirection, hstrict]
      cases h : u.direction? with
      | none => exact .short hfits (by rw [hlong, h]; rfl)
      | some direction => exact .straight hfits (by rw [hlong, h]; rfl) (dot_self_of_direction? h)
    · obtain ⟨hdirection, hstrict⟩ := hfinite.directions_of_overlong hfits
      rw [hdirection, hstrict]
      exact .overlong hfinite hfits

theorem dot_self_map_of_unit {u : Vec3 ℝ} (hu : u.dot u = 1) : (u.map ofReal).dot (u.map ofReal) = 1 := by
  rw [dot_self_map ((within_one hu).mono one_le_largest), hu]
  rfl

theorem direction?_map_of_unit {u : Vec3 ℝ} (hu : u.dot u = 1) :
    (u.map ofReal).direction? = some (u.map ofReal) := by
  have hdirection := (directions_map ((within_one hu).mono one_le_largest) (hu.trans_le one_le_largest)).1
  rw [hdirection, direction?_eq_self hu, Option.map_some]

theorem zero_direction? : (zero : Vec3 Extended).direction? = none := by
  have hdot : (zero : Vec3 ℝ).dot zero = 0 := by simp [dot, zero]
  have hnorm : (zero : Vec3 ℝ).norm = 0 := by
    change Real.sqrt ((zero : Vec3 ℝ).dot zero) = 0
    rw [hdot, Real.sqrt_zero]
  have hshort : (zero : Vec3 ℝ).direction? = none :=
    if_pos (decide_eq_true (hnorm.trans_le Scalar.epsilon_pos.le))
  have hexact := directions_map (u := zero) ⟨abs_zero_le, abs_zero_le, abs_zero_le⟩
    (hdot.trans_le (zero_le_one.trans one_le_largest))
  exact hexact.1.trans (by rw [hshort, Option.map_none])

theorem zero_dot_ne_one : (zero : Vec3 Extended).dot zero ≠ 1 := by
  have hdot : (zero : Vec3 ℝ).dot zero = 0 := by simp [dot, zero]
  have hmap := dot_self_map (u := zero) ⟨abs_zero_le, abs_zero_le, abs_zero_le⟩
  rw [hdot] at hmap
  intro hone
  exact zero_ne_one ((ofReal_inj abs_zero_le abs_one_le).mp (hmap.symm.trans hone))

theorem HasNan.not_isFinite_dot (h : v.HasNan) : ¬(v.dot v).IsFinite := by
  rw [h.dot_self]
  exact id

theorem HasInfinite.not_isFinite_dot (h : v.HasInfinite) (hnan : ¬v.HasNan) : ¬(v.dot v).IsFinite := by
  rw [h.dot_self hnan]
  exact id

theorem HasNan.dot_ne_one (h : v.HasNan) : v.dot v ≠ 1 := by
  intro hone
  exact h.not_isFinite_dot (hone ▸ isFinite_ofReal abs_one_le)

theorem dot_ne_one (h : v = zero ∨ v.HasNan) : v.dot v ≠ 1 := by
  rcases h with rfl | hnan
  · exact zero_dot_ne_one
  · exact hnan.dot_ne_one

theorem HasNan.rotate (h : v.HasNan) (q : Quat Extended) : (q.rotate v).HasNan := by
  rcases h with h | h | h
  · exact .inl (by simp only [Quat.rotate, add, h, add_nan])
  · exact .inr (.inl (by simp only [Quat.rotate, add, h, add_nan]))
  · exact .inr (.inr (by simp only [Quat.rotate, add, h, add_nan]))

end Space.Vec3

open Extended

theorem Space.Screw.turning?_cases (axis point : Vec3 Extended) :
    ((axis.dot axis).IsFinite ∧ ∀ screw, turning? axis point = some screw →
      screw.angular.dot screw.angular = 1) ∨
    (¬(axis.dot axis).IsFinite ∧ ∃ screw, turning? axis point = some screw ∧
      (screw.angular = .zero ∨ screw.angular.HasNan)) := by
  have hheading := axis.heading
  generalize axis.strictDirection? = other at hheading
  generalize hdirection : axis.direction? = direction at hheading
  rw [turning?, hdirection]
  cases hheading with
  | short hfinite => exact .inl ⟨hfinite, fun _ h => by simp at h⟩
  | straight hfinite _ hunit =>
      refine .inl ⟨hfinite, ?_⟩
      rintro screw h
      cases h
      exact Vec3.dot_self_map_of_unit hunit
  | overlong _ hover => exact .inr ⟨hover, _, rfl, .inl rfl⟩
  | endless hinfinite hnan hlost => exact .inr ⟨hinfinite.not_isFinite_dot hnan, _, rfl, .inr hlost⟩
  | unknown hnan hlost => exact .inr ⟨hnan.not_isFinite_dot, _, rfl, .inr hlost⟩

theorem Space.Screw.unit_iff_of_turning? {axis point : Vec3 Extended} {screw : Screw Extended}
    (h : turning? axis point = some screw) :
    (screw.angular.dot screw.angular = 1 ↔ (axis.dot axis).IsFinite) ∧
      (screw.angular.dot screw.angular ≠ 1 → screw.angular = .zero ∨ screw.angular.HasNan) := by
  rcases turning?_cases axis point with ⟨hfinite, hunit⟩ | ⟨hover, other, hother, hlost⟩
  · have hunit := hunit screw h
    exact ⟨iff_of_true hunit hfinite, fun hne => absurd hunit hne⟩
  · cases h.symm.trans hother
    exact ⟨iff_of_false (Vec3.dot_ne_one hlost) hover, fun _ => hlost⟩

theorem Space.Screw.exists_turning?_ne_one_iff (axis point : Vec3 Extended) :
    (∃ screw, turning? axis point = some screw ∧ screw.angular.dot screw.angular ≠ 1) ↔
      ¬(axis.dot axis).IsFinite := by
  constructor
  · rintro ⟨screw, h, hne⟩ hfinite
    exact hne ((unit_iff_of_turning? h).1.mpr hfinite)
  · intro hover
    rcases turning?_cases axis point with ⟨hfinite, -⟩ | ⟨-, screw, h, hlost⟩
    · exact absurd hfinite hover
    · exact ⟨screw, h, Vec3.dot_ne_one hlost⟩

-- A frame that is turned by a unit quaternion. Where it is does not matter here.
def Space.Pose.Turned (pose : Pose Extended) : Prop :=
  ∃ q : Quat ℝ, q.normSquared = 1 ∧ pose.rotation = q.map ofReal

namespace Body.Segment

-- A joint has a direction, and its screw has it as well.
structure Directed (segment : Segment Extended) : Prop where
  axis : segment.axis.dot segment.axis = 1
  turning : segment.body.motion = .turning →
    segment.body.screw.angular.dot segment.body.screw.angular = 1
  sliding : segment.body.motion = .sliding →
    segment.body.screw.angular = .zero ∧ segment.body.screw.linear.dot segment.body.screw.linear = 1

variable {origin center : Pose Extended} {axis : Vec3 Extended} {motion : Motion} {mass : Extended}
  {inertia : Mat3 Extended} {screw : Screw Extended}

theorem exists_inverse_rotation (hcenter : center.Turned) :
    ∃ q : Quat ℝ, q.normSquared = 1 ∧ center.inverse.rotation = q.map ofReal := by
  obtain ⟨q, hq, hrotation⟩ := hcenter
  refine ⟨q.conjugate, by rw [Quat.normSquared_conjugate, hq], ?_⟩
  rw [← Quat.conjugate_map, ← hrotation]
  rfl

-- What is seen of a direction from the center of mass is a direction again.
theorem screwAtCenter?_of_unit (motion : Motion) (hcenter : center.Turned) {direction : Vec3 ℝ}
    (hunit : direction.dot direction = 1) :
    ∃ turned : Vec3 ℝ, turned.dot turned = 1 ∧
      screwAtCenter? motion (direction.map ofReal) center = some
        (match motion with
        | .turning => ⟨turned.map ofReal, ((turned.map ofReal).cross center.inverse.position).neg⟩
        | .sliding => .sliding (turned.map ofReal)) := by
  obtain ⟨q, hq, hrotation⟩ := exists_inverse_rotation hcenter
  have hturned : (q.rotate direction).dot (q.rotate direction) = 1 := by
    rw [Quat.dot_rotate hq, hunit]
  have hmap := Quat.rotate_map hq (Vec3.within_one hunit)
  refine ⟨q.rotate direction, hturned, ?_⟩
  cases motion with
  | turning =>
      simp only [screwAtCenter?, hrotation, hmap, Screw.turning?, Vec3.direction?_map_of_unit hturned,
        Option.map_some]
  | sliding => simp only [screwAtCenter?, hrotation, hmap]

-- Nothing is seen of no direction, so that a turning joint is refused after all.
theorem screwAtCenter?_zero (hcenter : center.Turned) :
    screwAtCenter? .turning .zero center = none ∧
      screwAtCenter? .sliding .zero center = some (.sliding .zero) := by
  obtain ⟨q, hq, hrotation⟩ := exists_inverse_rotation hcenter
  have hsmall : |(0 : ℝ)| ≤ 1 := by rw [abs_zero]; exact zero_le_one
  have hmap := Quat.rotate_map hq (v := .zero) ⟨hsmall, hsmall, hsmall⟩
  rw [Quat.rotate_zero] at hmap
  have hzero : (q.map ofReal).rotate (.zero : Vec3 Extended) = .zero := hmap
  simp only [screwAtCenter?, hrotation, hzero, Screw.turning?, Vec3.zero_direction?, Option.map_none,
    and_self]

-- Wherever it is seen from, what is no number stays so, and no test stops it.
theorem exists_screwAtCenter?_of_hasNan (motion : Motion) {direction : Vec3 Extended}
    (h : direction.HasNan) (center : Pose Extended) : ∃ screw, screwAtCenter? motion direction center = some screw := by
  cases motion with
  | turning =>
      have hdirection := (h.rotate center.inverse.rotation).directions.1
      simp only [screwAtCenter?, Screw.turning?, hdirection, Option.map_some]
      exact ⟨_, rfl⟩
  | sliding => exact ⟨_, rfl⟩

theorem make?_cases (hcenter : center.Turned) {segment : Segment Extended}
    (h : make? origin axis motion mass center inertia = some segment) :
    ((axis.dot axis).IsFinite ∧ segment.Directed) ∨
    (motion = .sliding ∧ axis.IsFinite ∧ ¬(axis.dot axis).IsFinite ∧ segment.axis = .zero) ∨
    (axis.HasInfinite ∧ ¬axis.HasNan ∧ segment.axis.HasNan) := by
  obtain ⟨hdirection, hscrew, -, hmotion, -⟩ := make?_eq_some_iff.mp h
  obtain ⟨body, origin', direction⟩ := segment
  simp only at hdirection hscrew hmotion
  have hheading := axis.heading
  rw [hdirection] at hheading
  generalize axis.direction? = other at hheading
  cases hheading with
  | straight hfinite _ hunit =>
      refine .inl ⟨hfinite, ?_⟩
      obtain ⟨turned, hturned, hturnedScrew⟩ := screwAtCenter?_of_unit motion hcenter hunit
      have hscrew := Option.some.inj (hscrew.symm.trans hturnedScrew)
      have hone := Vec3.dot_self_map_of_unit hturned
      refine ⟨Vec3.dot_self_map_of_unit hunit, ?_, ?_⟩
      · intro hturning
        obtain rfl : motion = .turning := hmotion.symm.trans hturning
        simp only [hscrew, hone]
      · intro hsliding
        obtain rfl : motion = .sliding := hmotion.symm.trans hsliding
        simp only [hscrew, Screw.sliding, hone, and_self]
  | overlong hfinite hover =>
      cases motion with
      | turning => simp [(screwAtCenter?_zero hcenter).1] at hscrew
      | sliding => exact .inr (.inl ⟨rfl, hfinite, hover, rfl⟩)
  | endless hinfinite hnan hdirection => exact .inr (.inr ⟨hinfinite, hnan, hdirection⟩)

theorem not_directed_of_axis {segment : Segment Extended}
    (h : segment.axis = .zero ∨ segment.axis.HasNan) : ¬segment.Directed :=
  fun hdirected => Vec3.dot_ne_one h hdirected.axis

theorem exists_make?_of_straight (hcenter : center.Turned) (hfinite : (axis.dot axis).IsFinite)
    (hlong : Scalar.lt (Scalar.epsilon * Scalar.epsilon) (axis.dot axis) = true) :
    ∃ segment, make? origin axis motion mass center inertia = some segment := by
  have hheading := axis.heading
  generalize axis.direction? = other at hheading
  generalize hdirection : axis.strictDirection? = direction at hheading
  cases hheading with
  | short _ hshort => simp [hshort] at hlong
  | straight _ _ hunit =>
      obtain ⟨turned, -, hscrew⟩ := screwAtCenter?_of_unit motion hcenter hunit
      exact ⟨⟨⟨motion, mass, center, inertia, _⟩, origin, _⟩,
        make?_eq_some_iff.mpr ⟨hdirection, hscrew, rfl, rfl, rfl, rfl, rfl⟩⟩
  | overlong _ hover => exact absurd hfinite hover
  | endless hinfinite hnan => exact absurd hfinite (hinfinite.not_isFinite_dot hnan)
  | unknown hnan => exact absurd hfinite hnan.not_isFinite_dot

-- Two kinds of axes are let through without a direction.
theorem exists_make?_of_overlong (hcenter : center.Turned) (hfinite : axis.IsFinite)
    (hover : ¬(axis.dot axis).IsFinite) :
    ∃ segment, make? origin axis .sliding mass center inertia = some segment ∧ segment.axis = .zero := by
  have hdirection := (hfinite.directions_of_overlong hover).2
  exact ⟨⟨⟨.sliding, mass, center, inertia, .sliding .zero⟩, origin, .zero⟩,
    make?_eq_some_iff.mpr ⟨hdirection, (screwAtCenter?_zero hcenter).2, rfl, rfl, rfl, rfl, rfl⟩, rfl⟩

theorem exists_make?_of_endless (hinfinite : axis.HasInfinite) (hnan : ¬axis.HasNan) :
    ∃ segment, make? origin axis motion mass center inertia = some segment ∧ segment.axis.HasNan := by
  have hdirection := (Vec3.directions_of_dot_infinite (hinfinite.dot_self hnan)).2
  obtain ⟨screw, hscrew⟩ := exists_screwAtCenter?_of_hasNan motion hinfinite.hasNan_shrink center
  exact ⟨⟨⟨motion, mass, center, inertia, screw⟩, origin, _⟩,
    make?_eq_some_iff.mpr ⟨hdirection, hscrew, rfl, rfl, rfl, rfl, rfl⟩, hinfinite.hasNan_shrink⟩

theorem directed_iff_of_make? (hcenter : center.Turned) {segment : Segment Extended}
    (h : make? origin axis motion mass center inertia = some segment) :
    (segment.Directed ↔ (axis.dot axis).IsFinite) ∧
      (¬segment.Directed → segment.axis = .zero ∨ segment.axis.HasNan) := by
  rcases make?_cases hcenter h with ⟨hdot, hdirected⟩ | ⟨-, -, hover, hzero⟩ | ⟨hinfinite, hnan, hlost⟩
  · exact ⟨iff_of_true hdirected hdot, fun hnot => absurd hdirected hnot⟩
  · exact ⟨iff_of_false (not_directed_of_axis (.inl hzero)) hover, fun _ => .inl hzero⟩
  · exact ⟨iff_of_false (not_directed_of_axis (.inr hlost)) (hinfinite.not_isFinite_dot hnan),
      fun _ => .inr hlost⟩

theorem exists_not_directed_iff (hcenter : center.Turned) :
    (∃ segment, make? origin axis motion mass center inertia = some segment ∧ ¬segment.Directed) ↔
      (motion = .sliding ∧ axis.IsFinite ∧ ¬(axis.dot axis).IsFinite) ∨
        (axis.HasInfinite ∧ ¬axis.HasNan) := by
  constructor
  · rintro ⟨segment, h, hnot⟩
    rcases make?_cases hcenter h with ⟨-, hdirected⟩ | ⟨hmotion, hfinite, hover, -⟩ | ⟨hinfinite, hnan, -⟩
    · exact absurd hdirected hnot
    · exact .inl ⟨hmotion, hfinite, hover⟩
    · exact .inr ⟨hinfinite, hnan⟩
  · rintro (⟨rfl, hfinite, hover⟩ | ⟨hinfinite, hnan⟩)
    · obtain ⟨segment, h, hzero⟩ := exists_make?_of_overlong hcenter hfinite hover
      exact ⟨segment, h, not_directed_of_axis (.inl hzero)⟩
    · obtain ⟨segment, h, hlost⟩ := exists_make?_of_endless hinfinite hnan
      exact ⟨segment, h, not_directed_of_axis (.inr hlost)⟩

-- The directions of joints and screws are directions exactly if the square of the length of the axis is a
-- finite number. Of other axes, a joint that slides is given none if the axis is too long, any joint is
-- given what is no number if the axis is infinite, and a screw takes whatever it gets.
theorem make?_directed_iff (origin : Pose Extended) (axis : Vec3 Extended) (motion : Motion)
    (mass : Extended) (center : Pose Extended) (hcenter : center.Turned) (inertia : Mat3 Extended) :
    (∀ segment, make? origin axis motion mass center inertia = some segment →
      (segment.Directed ↔ (axis.dot axis).IsFinite) ∧
      (¬segment.Directed → segment.axis = .zero ∨ segment.axis.HasNan)) ∧
    ((∃ segment, make? origin axis motion mass center inertia = some segment ∧ ¬segment.Directed) ↔
      (motion = .sliding ∧ axis.IsFinite ∧ ¬(axis.dot axis).IsFinite) ∨
        (axis.HasInfinite ∧ ¬axis.HasNan)) ∧
    ((axis.dot axis).IsFinite → Scalar.lt (Scalar.epsilon * Scalar.epsilon) (axis.dot axis) = true →
      ∃ segment, make? origin axis motion mass center inertia = some segment) ∧
    ∀ point,
      (∀ screw, Screw.turning? axis point = some screw →
        (screw.angular.dot screw.angular = 1 ↔ (axis.dot axis).IsFinite) ∧
        (screw.angular.dot screw.angular ≠ 1 → screw.angular = .zero ∨ screw.angular.HasNan)) ∧
      ((∃ screw, Screw.turning? axis point = some screw ∧ screw.angular.dot screw.angular ≠ 1) ↔
        ¬(axis.dot axis).IsFinite) := by
  refine ⟨fun _ h => directed_iff_of_make? hcenter h, exists_not_directed_iff hcenter,
    exists_make?_of_straight hcenter, fun point => ?_⟩
  exact ⟨fun _ h => Screw.unit_iff_of_turning? h, Screw.exists_turning?_ne_one_iff axis point⟩

-- A slanted axis in a frame that is turned two ways, and one whose length has too large a square.
noncomputable def hinge : Pose Extended :=
  ⟨.zero, (Quat.ofRollPitchYaw (1 : ℝ) 1 0).map ofReal⟩

noncomputable def slanted : Vec3 Extended :=
  (⟨1, 1, 1⟩ : Vec3 ℝ).map ofReal

noncomputable def vast : Vec3 Extended :=
  (⟨(10 ^ 200 : ℕ), 0, 0⟩ : Vec3 ℝ).map ofReal

theorem turned_hinge : hinge.Turned :=
  ⟨_, Quat.normSquared_ofRollPitchYaw 1 1 0, rfl⟩

theorem dot_slanted : (slanted.dot slanted).IsFinite ∧
    Scalar.lt (Scalar.epsilon * Scalar.epsilon) (slanted.dot slanted) = true := by
  have hdot : (⟨1, 1, 1⟩ : Vec3 ℝ).dot ⟨1, 1, 1⟩ = (3 : ℕ) := by
    simp only [Vec3.dot]
    norm_num
  have hsmall : |((3 : ℕ) : ℝ)| ≤ largest := by
    rw [Nat.abs_cast]
    exact (Nat.cast_le.mpr (by norm_num)).trans sixteen_le_largest
  rw [slanted, Vec3.dot_self_map ⟨abs_one_le, abs_one_le, abs_one_le⟩, hdot, epsilon_mul_epsilon,
    lt_ofReal abs_epsilon_mul_epsilon_le hsmall]
  refine ⟨isFinite_ofReal hsmall, decide_eq_true ?_⟩
  simp only [Scalar.epsilon]
  norm_num

theorem isFinite_vast : vast.IsFinite ∧ ¬(vast.dot vast).IsFinite := by
  have hsmall : |((10 ^ 200 : ℕ) : ℝ)| ≤ largest := by
    rw [Nat.abs_cast]
    exact Nat.cast_le.mpr (by decide +kernel)
  refine ⟨⟨isFinite_ofReal hsmall, isFinite_ofReal abs_zero_le, isFinite_ofReal abs_zero_le⟩, ?_⟩
  intro hfinite
  have hle := Vec3.dot_self_le ⟨hsmall, abs_zero_le, abs_zero_le⟩ hfinite
  simp only [Vec3.dot, mul_zero, add_zero] at hle
  have hlarge : ¬10 ^ 200 * 10 ^ 200 ≤ (2 ^ 53 - 1) * 2 ^ 971 := by decide +kernel
  rw [largest, ← Nat.cast_mul, Nat.cast_le] at hle
  exact hlarge hle

theorem make?_directed_iff_hinge : hinge.Turned ∧
    (∃ segment, make? .one slanted .turning 1 hinge (.diagonal 1) = some segment ∧ segment.Directed) ∧
    ∃ segment, make? .one vast .sliding 1 hinge (.diagonal 1) = some segment ∧ ¬segment.Directed := by
  obtain ⟨hfinite, hlong⟩ := dot_slanted
  obtain ⟨hmade, -, hexists, -⟩ :=
    make?_directed_iff .one slanted .turning 1 hinge turned_hinge (.diagonal 1)
  obtain ⟨-, hlost, -⟩ := make?_directed_iff .one vast .sliding 1 hinge turned_hinge (.diagonal 1)
  obtain ⟨segment, h⟩ := hexists hfinite hlong
  obtain ⟨hvast, hover⟩ := isFinite_vast
  exact ⟨turned_hinge, ⟨segment, h, (hmade segment h).1.mpr hfinite⟩, hlost.mpr (.inl ⟨rfl, hvast, hover⟩)⟩

-- A joint slides along nothing, and a screw turns about what is no number.
theorem make?_vast : ∃ segment,
    make? .one vast .sliding 1 hinge (.diagonal 1) = some segment ∧ segment.axis = .zero ∧
      ¬segment.Directed ∧
      ∃ screw, Screw.turning? ⟨nan, 0, 0⟩ .zero = some screw ∧ screw.angular = ⟨nan, nan, nan⟩ := by
  obtain ⟨hvast, hover⟩ := isFinite_vast
  obtain ⟨segment, h, hzero⟩ := exists_make?_of_overlong turned_hinge hvast hover
  have hnan : (⟨nan, 0, 0⟩ : Vec3 Extended).HasNan := .inl rfl
  refine ⟨segment, h, hzero, not_directed_of_axis (.inl hzero), ?_⟩
  rw [Screw.turning?, hnan.directions.1]
  exact ⟨_, rfl, rfl⟩

end Body.Segment

end Linkage
