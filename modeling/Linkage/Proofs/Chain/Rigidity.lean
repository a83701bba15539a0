import Linkage.Proofs.Body.Inertia
import Linkage.Proofs.Chain.Growth
import Linkage.Proofs.Chain.Increment
import Linkage.Proofs.Space.Adjoint

namespace Linkage

open Body Space

noncomputable def Space.Vec3.distance (u v : Vec3 ℝ) : ℝ :=
  (u.add v.neg).norm

namespace Space.Pose

theorem compose_one {a : Pose ℝ} (ha : a.Rigid) : a.compose one = a :=
  congrArg RigidPose.pose (mul_one (⟨a, ha⟩ : RigidPose))

-- The position cancels, and turning keeps lengths.
theorem distance_apply {a : Pose ℝ} (ha : a.Rigid) (u v : Vec3 ℝ) :
    (a.apply u).distance (a.apply v) = u.distance v := by
  have hdifference : (a.apply u).add (a.apply v).neg = a.rotation.rotate (u.add v.neg) := by
    rw [Quat.rotate_add, Quat.rotate_neg]
    ext <;> simp only [apply, Vec3.add, Vec3.neg] <;> ring
  rw [Vec3.distance, hdifference, Quat.norm_rotate ha, Vec3.distance]

-- Poses are the elements of a group that acts on places and keeps their distances.
structure Laws (a b c : Pose ℝ) : Prop where
  compose_assoc : (a.compose b).compose c = a.compose (b.compose c)
  one_compose : one.compose a = a
  compose_one : a.compose one = a
  inverse_compose : a.inverse.compose a = one
  compose_inverse : a.compose a.inverse = one
  apply_compose : ∀ v, (a.compose b).apply v = a.apply (b.apply v)
  rigid_compose : (a.compose b).Rigid
  rigid_inverse : a.inverse.Rigid
  distance_apply : ∀ u v,
    ((a.compose b).apply u).distance ((a.compose b).apply v) = u.distance v

theorem laws {a b c : Pose ℝ} (ha : a.Rigid) (hb : b.Rigid) : Laws a b c where
  compose_assoc := Pose.compose_assoc ha hb c
  one_compose := Pose.one_compose a
  compose_one := Pose.compose_one ha
  inverse_compose := Pose.inverse_compose ha
  compose_inverse := Pose.compose_inverse ha
  apply_compose := Pose.apply_compose ha hb
  rigid_compose := ha.compose hb
  rigid_inverse := ha.inverse
  distance_apply := Pose.distance_apply (ha.compose hb)

end Space.Pose

namespace Chain

theorem rigid_accumulate {base : Pose ℝ} {poses : List (Pose ℝ)} (hbase : base.Rigid)
    (hposes : ∀ pose ∈ poses, pose.Rigid) : ∀ pose ∈ accumulate base poses, pose.Rigid := by
  induction poses generalizing base with
  | nil => simp [accumulate]
  | cons first rest ih =>
      have hnext : (base.compose first).Rigid := hbase.compose (hposes first List.mem_cons_self)
      intro pose hm
      rcases List.mem_cons.mp hm with rfl | hm
      · exact hnext
      · exact ih hnext (fun other ho => hposes other (List.mem_cons_of_mem _ ho)) pose hm

-- All that a chain makes of coordinates has a unit quaternion, and it makes something of as many
-- as it has links.
structure StaysRigid (chain : Chain ℝ) (q : List ℝ) : Prop where
  transforms : ∀ stages, chain.transforms q = .ok stages → ∀ stage ∈ stages, stage.Rigid
  poses : ∀ poses, chain.poses q = .ok poses → ∀ pose ∈ poses, pose.Rigid
  tipPose : ∀ pose, chain.tipPose q = .ok pose → pose.Rigid
  answers : q.length = chain.length → ∃ stages poses tip,
    chain.transforms q = .ok stages ∧ chain.poses q = .ok poses ∧ chain.tipPose q = .ok tip

variable {chain : Chain ℝ} {q : List ℝ}

theorem tipPose_eq (h : q.length = chain.length) :
    chain.tipPose q = .ok ((accumulate .one (chain.stages q)).getLast?.getD .one) := by
  rw [tipPose, poses_eq_ok h]
  rfl

theorem staysRigid (hrigid : ∀ segment ∈ chain.segments, segment.Rigid) (q : List ℝ) :
    chain.StaysRigid q := by
  by_cases hq : q.length = chain.length
  · have hstages := rigid_stages hrigid (q := q)
    have hposes := rigid_accumulate Pose.rigid_one hstages
    refine ⟨?_, ?_, ?_, fun _ => ⟨_, _, _, transforms_eq_ok hq, poses_eq_ok hq, tipPose_eq hq⟩⟩
    · intro stages h
      cases (transforms_eq_ok hq).symm.trans h
      exact hstages
    · intro poses h
      cases (poses_eq_ok hq).symm.trans h
      exact hposes
    · intro pose h
      cases (tipPose_eq hq).symm.trans h
      cases hlast : (accumulate Pose.one (chain.stages q)).getLast? with
      | none => exact Pose.rigid_one
      | some last => exact hposes last (List.mem_of_getLast? hlast)
  · refine ⟨?_, ?_, ?_, fun h => absurd h hq⟩ <;> intro _ h
    · cases (transforms_eq_error hq).symm.trans h
    · cases (poses_eq_error hq).symm.trans h
    · cases (tipPose_eq_error hq).symm.trans h

-- Nothing has to be renormalised: poses are a group, what angles and joints give is in it, and so is all
-- that a chain multiplies together.
theorem laws_staysRigid :
    (∀ a b c : Pose ℝ, a.Rigid → b.Rigid → a.Laws b c) ∧
    (∀ angles position : Vec3 ℝ, (Pose.ofRollPitchYaw angles position).Rigid) ∧
    (∀ origin axis motion mass center inertia (segment : Segment ℝ), origin.Rigid →
      Segment.make? origin axis motion mass center inertia = some segment →
        ∀ x, (segment.transform x).Rigid) ∧
    (∀ chain : Chain ℝ, (∀ segment ∈ chain.segments, segment.Rigid) → ∀ q, chain.StaysRigid q) ∧
    ∀ robot presence pairs (registry : Registry ℝ) name chain, pairs.Perm robot.pairs →
      (Registry.ofPairs robot presence pairs).2 = .ok registry →
        toLink registry name = .ok chain → ∀ q, chain.StaysRigid q := by
  refine ⟨fun _ _ _ ha hb => Pose.laws ha hb, Pose.rigid_ofRollPitchYaw, ?_,
    fun _ hrigid => staysRigid hrigid, ?_⟩
  · intro origin axis motion mass center inertia segment horigin h x
    exact (Segment.rigid_of_make? horigin h).transform x
  · intro robot presence pairs registry name chain hpairs h hchain
    exact staysRigid (rigid_of_toLink (Registry.made_of_ofPairs hpairs h) hchain)

-- An arm of two elbows, and the flywheel by itself.
theorem laws_staysRigid_elbows : ∃ segment,
    Segment.make? Segment.elbowOrigin ⟨0, 3, 4⟩ .turning 1 Segment.elbowCenter (.diagonal 1) =
      some segment ∧
    Segment.elbowOrigin.Laws Segment.elbowCenter Segment.elbowOrigin ∧
    (segment.transform 1).Rigid ∧
    (∃ poses, Chain.poses ⟨[("upper", segment), ("lower", segment)]⟩ [0, 1] = .ok poses ∧
      ∀ pose ∈ poses, pose.Rigid) ∧
    ∃ registry chain, (Registry.ofPairs Rigid.flywheel ⟨["flywheel"], []⟩ []).2 = .ok registry ∧
      toLink registry "flywheel" = .ok chain ∧ chain.StaysRigid [1] := by
  obtain ⟨hlaws, hangles, hjoint, hmade, hread⟩ := laws_staysRigid
  have horigin : Segment.elbowOrigin.Rigid := hangles _ _
  have hcenter : Segment.elbowCenter.Rigid := hangles _ _
  obtain ⟨segment, h⟩ : ∃ segment, Segment.make? Segment.elbowOrigin ⟨0, 3, 4⟩ .turning 1
      Segment.elbowCenter (.diagonal 1) = some segment := by
    apply Segment.exists_make? hcenter
    simp only [Scalar.epsilon, Vec3.dot]
    norm_num
  have hsegment := Segment.rigid_of_make? horigin h
  have harm := hmade ⟨[("upper", segment), ("lower", segment)]⟩
    (by simp [segments, hsegment]) [0, 1]
  obtain ⟨stages, poses, tip, -, hposes, -⟩ := harm.answers rfl
  obtain ⟨registry, hregistry, hmem⟩ := Rigid.exists_ofPairs_flywheel
  obtain ⟨wheel, hwheel⟩ := exists_toLink (Registry.made_of_ofPairs (.refl _) hregistry) hmem
  exact ⟨segment, h, hlaws _ _ _ horigin hcenter,
    hjoint _ _ _ _ _ _ _ horigin h 1, ⟨poses, hposes, harm.poses poses hposes⟩, registry, wheel,
    hregistry, hwheel, hread _ _ _ _ _ _ (.refl _) hregistry hwheel [1]⟩

end Chain

end Linkage
