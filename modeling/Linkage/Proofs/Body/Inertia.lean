import Linkage.Proofs.Body.Exponential
import Linkage.Proofs.Registry.Acceptance
import Linkage.Proofs.Registry.Pruning
import Linkage.Proofs.Space.Adjoint

namespace Linkage

open Body Description Space

namespace Space

namespace Mat3

def sub {α : Type} [Scalar α] (a b : Mat3 α) : Mat3 α :=
  ⟨a.first.add b.first.neg, a.second.add b.second.neg, a.third.add b.third.neg⟩

-- The products of each entry of the one with each entry of the other.
def outer {α : Type} [Scalar α] (u v : Vec3 α) : Mat3 α :=
  ⟨v.scale u.x, v.scale u.y, v.scale u.z⟩

structure PosSemidef (m : Mat3 ℝ) : Prop where
  symmetric : m.transpose = m
  nonneg : ∀ v : Vec3 ℝ, 0 ≤ v.dot (m.mulVec v)

theorem add_mulVec (a b : Mat3 ℝ) (v : Vec3 ℝ) : (a.add b).mulVec v = (a.mulVec v).add (b.mulVec v) := by
  ext <;> simp only [mulVec, add, Vec3.dot, Vec3.add] <;> ring

theorem scale_mulVec (m : Mat3 ℝ) (factor : ℝ) (v : Vec3 ℝ) :
    (m.scale factor).mulVec v = (m.mulVec v).scale factor := by
  ext <;> simp only [mulVec, scale, Vec3.dot, Vec3.scale] <;> ring

theorem diagonal_mulVec (d : ℝ) (v : Vec3 ℝ) : (diagonal d).mulVec v = v.scale d := by
  ext <;> simp [diagonal, ofRows, mulVec, Vec3.dot, Vec3.scale, mul_comm]

-- The square of a distance, less what of it lies along a vector: two cross products by the
-- displacement.
theorem sub_outer_mulVec (p v : Vec3 ℝ) :
    ((diagonal (p.dot p)).sub (outer p p)).mulVec v = (p.cross (p.cross v)).neg := by
  ext <;> simp only [diagonal, sub, outer, ofRows, mulVec, Vec3.dot, Vec3.scale, Vec3.add, Vec3.neg,
    Vec3.cross] <;> ring

theorem transpose_mul (a b : Mat3 ℝ) : (a.mul b).transpose = b.transpose.mul a.transpose := by
  ext <;> simp only [mul, transpose, mulVec, Vec3.dot] <;> ring

theorem transpose_skew_mulVec (u v : Vec3 ℝ) : (skew u).transpose.mulVec v = (u.cross v).neg := by
  ext <;> simp only [skew, ofRows, transpose, mulVec, Vec3.dot, Vec3.cross, Vec3.neg] <;> ring

end Mat3

-- What a wrench does on what moves along a screw, in a unit of time.
noncomputable def Screw.pair (screw wrench : Screw ℝ) : ℝ :=
  screw.angular.dot wrench.angular + screw.linear.dot wrench.linear

namespace Mat6

-- The inertia of a body about a place that its center of mass is away from: the one about the center in
-- turned axes, what the mass adds to that at its distance, and how turning and moving mix.
noncomputable def steiner (rotation : Mat3 ℝ) (position : Vec3 ℝ) (inertia : Mat3 ℝ) (mass : ℝ) : Mat6 ℝ :=
  ⟨((rotation.mul inertia).mul rotation.transpose).add
      (((Mat3.diagonal (position.dot position)).sub (Mat3.outer position position)).scale mass),
    (Mat3.skew position).scale mass,
    (Mat3.skew position).scale (-mass),
    .diagonal mass⟩

structure PosSemidef (m : Mat6 ℝ) : Prop where
  symmetric : m.transpose = m
  nonneg : ∀ s : Screw ℝ, 0 ≤ s.pair (m.mulScrew s)

theorem mul_assoc (a b c : Mat6 ℝ) : (a.mul b).mul c = a.mul (b.mul c) := by
  apply ext_mulScrew
  intro s
  simp only [mulScrew_mul]

theorem transpose_transpose (m : Mat6 ℝ) : m.transpose.transpose = m :=
  rfl

theorem transpose_mul (a b : Mat6 ℝ) : (a.mul b).transpose = b.transpose.mul a.transpose := by
  ext <;> simp only [mul, transpose, Mat3.accumulate, Mat3.accumulateRow, Mat3.mul, Mat3.transpose,
    Mat3.mulVec, Vec3.dot] <;> ring

theorem pair_transpose_mulScrew (m : Mat6 ℝ) (s t : Screw ℝ) :
    s.pair (m.transpose.mulScrew t) = (m.mulScrew s).pair t := by
  simp only [Screw.pair, mulScrew, transpose, Mat3.transpose, Mat3.mulVec, Vec3.dot, Vec3.add]
  ring

theorem transpose_congruence {m : Mat6 ℝ} (h : m.transpose = m) (a : Mat6 ℝ) :
    ((a.transpose.mul m).mul a).transpose = (a.transpose.mul m).mul a := by
  rw [transpose_mul, transpose_mul, transpose_transpose, h, mul_assoc]

theorem PosSemidef.congruence {m : Mat6 ℝ} (h : m.PosSemidef) (a : Mat6 ℝ) :
    ((a.transpose.mul m).mul a).PosSemidef where
  symmetric := transpose_congruence h.symmetric a
  nonneg := by
    intro s
    rw [mulScrew_mul, mulScrew_mul, pair_transpose_mulScrew]
    exact h.nonneg (a.mulScrew s)

end Mat6

namespace Pose

variable {a : Pose ℝ}

-- A screw as it is seen from a frame: both parts are turned back, and the linear part is taken where the
-- frame has its origin.
theorem mulScrew_adjoint_inverse (ha : a.Rigid) (s : Screw ℝ) :
    a.inverse.adjoint.mulScrew s = ⟨a.inverse.rotation.rotate s.angular,
      a.inverse.rotation.rotate (s.linear.add (a.position.cross s.angular).neg)⟩ := by
  rw [mulScrew_adjoint ha.inverse]
  ext1
  · rfl
  · change ((a.inverse.rotation.rotate a.position.neg).cross (a.inverse.rotation.rotate s.angular)).add
      (a.inverse.rotation.rotate s.linear) = _
    rw [← Quat.rotate_cross ha.inverse, ← Quat.rotate_add]
    congr 1
    ext <;> simp only [Vec3.add, Vec3.neg, Vec3.cross] <;> ring

-- A wrench as it comes out of a frame: both parts are turned, and the force has a moment about the outer
-- origin.
theorem mulScrew_transpose_adjoint_inverse (ha : a.Rigid) (t : Screw ℝ) :
    a.inverse.adjoint.transpose.mulScrew t =
      ⟨(a.rotation.rotate t.angular).add (a.position.cross (a.rotation.rotate t.linear)),
        a.rotation.rotate t.linear⟩ := by
  have hback : ∀ v, a.inverse.rotation.toMatrix.transpose.mulVec v = a.rotation.rotate v := by
    intro v
    rw [Quat.transpose_toMatrix_mulVec ha.inverse]
    exact congrArg (·.rotate v) (Quat.conjugate_conjugate a.rotation)
  ext1
  · simp only [Mat6.mulScrew, Mat6.transpose, adjoint, Mat3.transpose_mul, Mat3.mulVec_mul,
      Mat3.transpose_skew_mulVec, hback, Quat.rotate_neg, Quat.rotate_cross ha,
      Segment.rotate_inverse_position ha]
    ext <;> simp only [Vec3.add, Vec3.neg, Vec3.cross] <;> ring
  · simp only [Mat6.mulScrew, Mat6.transpose, adjoint, hback]
    ext <;> simp [Vec3.add, Mat3.mulVec, Mat3.transpose, Mat3.zero, Vec3.zero, Vec3.dot]

end Pose

end Space

namespace Body.Rigid

variable {body : Rigid ℝ}

theorem mulScrew_inertiaAtCenter (body : Rigid ℝ) (s : Screw ℝ) :
    body.inertiaAtCenter.mulScrew s =
      ⟨body.inertia.mulVec s.angular, s.linear.scale body.mass⟩ := by
  simp only [Mat6.mulScrew, inertiaAtCenter, Mat3.zero_mulVec, Mat3.diagonal_mulVec, Vec3.add_zero,
    Vec3.zero_add]

-- The momentum of a body is that of its mass at its center, and that of its turning about it.
theorem mulScrew_inertiaAtLink (hcenter : body.center.Rigid) (s : Screw ℝ) :
    body.inertiaAtLink.mulScrew s =
      let momentum := (s.linear.add (body.center.position.cross s.angular).neg).scale body.mass
      ⟨(body.center.rotation.rotate (body.inertia.mulVec (body.center.rotation.conjugate.rotate s.angular))).add
        (body.center.position.cross momentum), momentum⟩ := by
  rw [inertiaAtLink, Mat6.mulScrew_mul, Mat6.mulScrew_mul, Pose.mulScrew_adjoint_inverse hcenter,
    mulScrew_inertiaAtCenter, Pose.mulScrew_transpose_adjoint_inverse hcenter]
  simp only [Quat.rotate_scale, Segment.rotate_inverse_rotate hcenter]
  rfl

theorem inertiaAtLink_eq (hcenter : body.center.Rigid) :
    body.inertiaAtLink =
      .steiner body.center.rotation.toMatrix body.center.position body.inertia body.mass := by
  apply Mat6.ext_mulScrew
  intro s
  rw [mulScrew_inertiaAtLink hcenter]
  simp only [Mat6.steiner, Mat6.mulScrew, Mat3.add_mulVec, Mat3.scale_mulVec, Mat3.mulVec_mul,
    Mat3.sub_outer_mulVec, Mat3.skew_mulVec, Mat3.diagonal_mulVec,
    Quat.transpose_toMatrix_mulVec hcenter, Quat.rotate_eq_mulVec hcenter]
  ext1
  · ext <;> simp only [Vec3.add, Vec3.neg, Vec3.scale, Vec3.cross] <;> ring
  · ext <;> simp only [Vec3.add, Vec3.neg, Vec3.scale, Vec3.cross] <;> ring

theorem transpose_inertiaAtCenter (h : body.inertia.transpose = body.inertia) :
    body.inertiaAtCenter.transpose = body.inertiaAtCenter := by
  simp only [Mat6.transpose, inertiaAtCenter, h]
  rfl

theorem transpose_inertiaAtLink (h : body.inertia.transpose = body.inertia) :
    body.inertiaAtLink.transpose = body.inertiaAtLink :=
  Mat6.transpose_congruence (transpose_inertiaAtCenter h) _

theorem posSemidef_inertiaAtCenter (hinertia : body.inertia.PosSemidef) (hmass : 0 ≤ body.mass) :
    body.inertiaAtCenter.PosSemidef where
  symmetric := transpose_inertiaAtCenter hinertia.symmetric
  nonneg := by
    intro s
    have hlinear : s.linear.dot (s.linear.scale body.mass) = body.mass * s.linear.dot s.linear := by
      simp only [Vec3.dot, Vec3.scale]
      ring
    rw [mulScrew_inertiaAtCenter, Screw.pair, hlinear]
    exact add_nonneg (hinertia.nonneg s.angular) (mul_nonneg hmass s.linear.dot_self_nonneg)

theorem posSemidef_inertiaAtLink (hinertia : body.inertia.PosSemidef) (hmass : 0 ≤ body.mass) :
    body.inertiaAtLink.PosSemidef :=
  (posSemidef_inertiaAtCenter hinertia hmass).congruence _

end Body.Rigid

-- Of the moments only six are read.
theorem Registry.Made.transpose_inertia {α : Type} [Scalar α] {robot : Robot α} {presence : Presence}
    {pairs : List (String × String)} {registry : Registry α} (made : Made robot presence pairs registry)
    {name : String} {entry : Entry α} (hget : registry.get? name = some entry) :
    entry.segment.body.inertia.transpose = entry.segment.body.inertia := by
  obtain ⟨link, -, -, hsegment, -⟩ := made.exists_link hget
  obtain ⟨-, -, hinertia⟩ := body_of_segment? hsegment
  rw [hinertia]
  rfl

theorem Space.Mat3.transpose_of_entries {α β : Type} {value : α → β} {m : Mat3 α} {n : Mat3 β}
    (hm : m.transpose = m) (hn : n.entries = m.entries.map value) : n.transpose = n := by
  have hxy : m.second.x = m.first.y := congrArg (·.first.y) hm
  have hxz : m.third.x = m.first.z := congrArg (·.first.z) hm
  have hyz : m.third.y = m.second.z := congrArg (·.second.z) hm
  simp only [entries, List.map_cons, List.map_nil, List.cons.injEq, and_true, hxy, hxz, hyz] at hn
  obtain ⟨-, hxy, hxz, hyx, -, hyz, hzx, hzy, -⟩ := hn
  ext <;> simp only [transpose, hxy, hxz, hyx, hyz, hzx, hzy]

namespace Body.Rigid

open Registry

-- The inertia at the origin of the link frame has a closed form. With it the inertia of every link that
-- is read is symmetric, whatever its numbers are taken to be exactly, and it is never negative as a form
-- if that about the center of mass is not.
theorem inertiaAtLink_closed (body : Rigid ℝ) (hcenter : body.center.Rigid) :
    body.inertiaAtLink =
      .steiner body.center.rotation.toMatrix body.center.position body.inertia body.mass ∧
    (body.inertia.PosSemidef → 0 ≤ body.mass → body.inertiaAtLink.PosSemidef) ∧
    (∀ robot presence pairs (registry : Registry ℝ), pairs.Perm robot.pairs →
      (ofPairs robot presence pairs).2 = .ok registry →
        ∀ name entry, registry.get? name = some entry →
          entry.segment.body.inertiaAtLink.transpose = entry.segment.body.inertiaAtLink) ∧
    ∀ reader text registry, (ofText reader text).2 = .ok registry →
      ∀ name entry, registry.get? name = some entry → ∀ (value : Float → ℝ) (exact : Rigid ℝ),
        exact.inertia.entries = entry.segment.body.inertia.entries.map value →
          exact.inertiaAtLink.transpose = exact.inertiaAtLink := by
  refine ⟨inertiaAtLink_eq hcenter, posSemidef_inertiaAtLink, ?_, ?_⟩
  · intro robot presence pairs registry hpairs h name entry hget
    exact transpose_inertiaAtLink ((made_of_ofPairs hpairs h).transpose_inertia hget)
  · intro reader text registry h name entry hget value exact hentries
    obtain ⟨robot, presence, -, hregistry⟩ := ofText_eq_ok_iff.mp h
    have hsymmetric := (made_of_ofRobot hregistry).transpose_inertia hget
    exact transpose_inertiaAtLink (Mat3.transpose_of_entries hsymmetric hentries)

-- A flywheel with a center of mass that is both turned and moved away.
noncomputable def flywheel : Robot ℝ where
  links := [⟨"flywheel", some ⟨⟨⟨0, 1, 1⟩, ⟨1, 1, 0⟩⟩, 1, ⟨1, 0, 0, 1, 0, 1⟩⟩⟩]
  joints := []

theorem exists_ofPairs_flywheel : ∃ registry,
    (ofPairs flywheel ⟨["flywheel"], []⟩ []).2 = .ok registry ∧ registry.contains "flywheel" = true := by
  suffices h : ∃ registry, (ofPairs flywheel ⟨["flywheel"], []⟩ []).2 = .ok registry by
    obtain ⟨registry, h⟩ := h
    exact ⟨registry, h, (made_of_ofPairs (.refl _) h).contains_iff.mpr
      ⟨⟨_, List.mem_cons_self, rfl⟩, List.mem_cons_self⟩⟩
  refine (exists_ofPairs_iff (.refl _)).mpr ⟨?_, ?_⟩
  · have hnone : ∀ parent child, ¬flywheel.Holds parent child := by simp [flywheel, Robot.Holds]
    exact {
      distinct := by simp [flywheel]
      single := by simp [flywheel]
      attached := by simp [flywheel, Robot.Dangles]
      acyclic := by
        intro link hcycle
        obtain ⟨parent, -, hheld⟩ := Relation.TransGen.tail'_iff.mp hcycle
        exact hnone _ _ hheld
      rooted := by simp [flywheel, Robot.roots] }
  · rintro ⟨link, hm, -, hnone⟩
    cases List.mem_singleton.mp hm
    obtain ⟨segment, hsegment⟩ := Segment.exists_make? (Pose.rigid_ofRollPitchYaw _ _)
      (show Scalar.epsilon * Scalar.epsilon < (Vec3.unitZ : Vec3 ℝ).dot .unitZ by
        simp only [Scalar.epsilon, Vec3.unitZ, Vec3.dot]
        norm_num)
    exact Option.some_ne_none segment (hsegment.symm.trans hnone)

theorem exists_ofText_cart : ∃ registry entry,
    (ofText .plain (cart "name" "0")).2 = .ok registry ∧ registry.get? "cart" = some entry := by
  have hok : (ofRobot .plain (cartRobot 0) ⟨["cart"], []⟩).2.isOk = true := by rfl
  obtain ⟨registry, hregistry⟩ := exists_of_isOk hok
  have hmem : registry.contains "cart" = true := (made_of_ofRobot hregistry).contains_iff.mpr
    ⟨⟨_, List.mem_cons_of_mem _ List.mem_cons_self, rfl⟩, List.mem_cons_self⟩
  obtain ⟨entry, hget⟩ := Option.isSome_iff_exists.mp hmem
  exact ⟨registry, entry, ofText_eq_ok_iff.mpr ⟨_, _, read_cart, hregistry⟩, hget⟩

theorem inertiaAtLink_closed_flywheel : (∃ registry entry,
    (ofPairs flywheel ⟨["flywheel"], []⟩ []).2 = .ok registry ∧
      registry.get? "flywheel" = some entry ∧ entry.segment.body.center.Rigid ∧
      entry.segment.body.inertiaAtLink = .steiner entry.segment.body.center.rotation.toMatrix ⟨0, 1, 1⟩
        (.diagonal 1) 1 ∧
      entry.segment.body.inertiaAtLink.PosSemidef ∧
      entry.segment.body.inertiaAtLink.transpose = entry.segment.body.inertiaAtLink) ∧
    ∃ registry entry, (ofText .plain (cart "name" "0")).2 = .ok registry ∧
      registry.get? "cart" = some entry ∧ ∀ (value : Float → ℝ) (exact : Rigid ℝ),
        exact.inertia.entries = entry.segment.body.inertia.entries.map value →
          exact.inertiaAtLink.transpose = exact.inertiaAtLink := by
  obtain ⟨registry, h, hmem⟩ := exists_ofPairs_flywheel
  have made := made_of_ofPairs (.refl _) h
  obtain ⟨entry, hget⟩ := Option.isSome_iff_exists.mp hmem
  obtain ⟨link, hm, -, hsegment, -⟩ := made.exists_link hget
  cases List.mem_singleton.mp hm
  obtain ⟨hmass, hcenter, hinertia⟩ := body_of_segment? hsegment
  have hrigid : entry.segment.body.center.Rigid := hcenter ▸ Pose.rigid_ofRollPitchYaw _ _
  obtain ⟨hclosed, hform, hread, htext⟩ := inertiaAtLink_closed entry.segment.body hrigid
  have hone : entry.segment.body.inertia = .diagonal 1 := hinertia
  have hpositive : entry.segment.body.inertia.PosSemidef := by
    refine ⟨made.transpose_inertia hget, fun v => ?_⟩
    rw [hone, Mat3.diagonal_one_mulVec]
    exact v.dot_self_nonneg
  have hheavy : 0 ≤ entry.segment.body.mass := hmass ▸ zero_le_one
  refine ⟨⟨registry, entry, h, hget, hrigid, ?_, hform hpositive hheavy,
    hread _ _ _ _ (.refl _) h _ _ hget⟩, ?_⟩
  · rw [hclosed, hcenter, hone, hmass]
    rfl
  · obtain ⟨found, cart, hfound, hcart⟩ := exists_ofText_cart
    exact ⟨found, cart, hfound, hcart, htext _ _ _ hfound _ _ hcart⟩

end Body.Rigid

end Linkage
