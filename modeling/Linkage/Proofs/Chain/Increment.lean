import Linkage.Proofs.Body.Displacement
import Linkage.Proofs.Chain.Assembly
import Linkage.Proofs.Chain.Poses

namespace Linkage

open Body Description Space

-- What multiplies one factor from the right multiplies the whole product from the left, as it is seen
-- from where that factor leads to.
theorem prod_modify_mul {G : Type} [Group G] (factors : List G) {j : Nat} (hj : j < factors.length)
    (turn : G) : (factors.modify j (· * turn)).prod =
      (factors.take (j + 1)).prod * turn * (factors.take (j + 1)).prod⁻¹ * factors.prod := by
  induction factors generalizing j with
  | nil => simp at hj
  | cons first rest ih =>
      cases j with
      | zero =>
          simp only [List.modify_zero_cons, List.prod_cons, List.take_succ_cons, List.take_zero,
            List.prod_nil]
          group
      | succ j =>
          have hj : j < rest.length := by simpa using hj
          simp only [List.modify_succ_cons, List.prod_cons, List.take_succ_cons, ih hj]
          group

theorem prod_take_modify_mul {G : Type} [Group G] (factors : List G) {i j : Nat} (hji : j ≤ i)
    (hi : i < factors.length) (turn : G) : ((factors.modify j (· * turn)).take (i + 1)).prod =
      (factors.take (j + 1)).prod * turn * (factors.take (j + 1)).prod⁻¹ *
        (factors.take (i + 1)).prod := by
  have hlong : j < (factors.take (i + 1)).length := by
    rw [List.length_take]
    omega
  rw [List.take_modify, prod_modify_mul _ hlong, List.take_take, Nat.min_eq_left (by omega)]

theorem prod_take_modify_of_lt {G : Type} [Group G] (factors : List G) {i j : Nat} (hij : i < j)
    (turn : G) : ((factors.modify j (· * turn)).take (i + 1)).prod = (factors.take (i + 1)).prod := by
  have hshort : (factors.take (i + 1)).length ≤ j := by
    rw [List.length_take]
    omega
  rw [List.take_modify, List.modify_eq_self hshort]

instance : CanLift (Pose ℝ) RigidPose RigidPose.pose Pose.Rigid :=
  ⟨fun pose h => ⟨⟨pose, h⟩, rfl⟩⟩

namespace Chain

theorem product_map_pose (base : RigidPose) (poses : List RigidPose) :
    product base.pose (poses.map RigidPose.pose) = (base * poses.prod).pose := by
  induction poses generalizing base with
  | nil => simp [product]
  | cons pose rest ih =>
      have hrest := ih (base * pose)
      rw [RigidPose.pose_mul, mul_assoc] at hrest
      rw [List.prod_cons, ← hrest]
      rfl

theorem getElem?_accumulate_map_pose (poses : List RigidPose) {i : Nat} (hi : i < poses.length) :
    (accumulate .one (poses.map RigidPose.pose))[i]? = some (poses.take (i + 1)).prod.pose := by
  have hone := product_map_pose 1 (poses.take (i + 1))
  rw [one_mul, List.map_take] at hone
  rw [getElem?_accumulate _ _ (by simpa using hi)]
  exact congrArg some hone

theorem map_pose_modify (poses : List RigidPose) (j : Nat) (turn : RigidPose) :
    (poses.modify j (· * turn)).map RigidPose.pose =
      (poses.map RigidPose.pose).modify j (·.compose turn.pose) := by
  apply List.ext_getElem?
  intro k
  simp only [List.getElem?_map, List.getElem?_modify]
  cases poses[k]? with
  | none => rfl
  | some pose => by_cases hk : j = k <;> simp [hk]

variable {chain : Chain ℝ} {q : List ℝ}

-- Whatever is accepted: angles give unit quaternions, and a segment keeps a direction as its axis.
theorem rigid_of_toLink {robot : Robot ℝ} {presence : Presence} {pairs : List (String × String)}
    {registry : Registry ℝ} (made : Registry.Made robot presence pairs registry) {name : String}
    (h : toLink registry name = .ok chain) : ∀ segment ∈ chain.segments, segment.Rigid := by
  intro segment hm
  obtain ⟨link, entry, hget, rfl⟩ := exists_get?_of_toLink made h hm
  obtain ⟨found, -, -, hsegment, -⟩ := made.exists_link hget
  refine Segment.rigid_of_make? ?_ hsegment
  unfold Robot.attachment
  cases robot.jointAbove? found.name with
  | none => exact Pose.rigid_one
  | some joint => exact Pose.rigid_ofRollPitchYaw _ _

theorem rigid_stages (hrigid : ∀ segment ∈ chain.segments, segment.Rigid) :
    ∀ stage ∈ chain.stages q, stage.Rigid := by
  intro stage hm
  obtain ⟨k, hk⟩ := List.mem_iff_getElem?.mp hm
  obtain ⟨segment, x, hsegment, -, rfl⟩ := List.getElem?_zipWith_eq_some.mp hk
  exact (hrigid segment (List.mem_of_getElem? hsegment)).transform x

theorem stages_modify {segment : Segment ℝ} {j : Nat} (hsegment : chain.segments[j]? = some segment)
    (hrigid : segment.Rigid) (d : ℝ) :
    chain.stages (q.modify j (· + d)) =
      (chain.stages q).modify j (·.compose (segment.displacement d)) := by
  apply List.ext_getElem?
  intro k
  rw [List.getElem?_modify, stages, stages, List.getElem?_zipWith, List.getElem?_zipWith,
    List.getElem?_modify]
  by_cases hk : j = k
  · subst hk
    cases hx : q[j]? with
    | none => simp [hsegment]
    | some x => simp [hsegment, hrigid.transform_add]
  · simp [hk]

-- A joint that moves on by `d` moves itself and all that it carries, as one rigid whole, by its own
-- motion seen from the base. What is nearer to the base stays, and what is carried keeps its places
-- on the link of the joint.
theorem poses_modify (chain : Chain ℝ) (hrigid : ∀ segment ∈ chain.segments, segment.Rigid)
    (q : List ℝ) (hq : q.length = chain.length) (j : Nat) (hj : j < chain.length) (d : ℝ) :
    ∃ before after, chain.poses q = .ok before ∧ chain.poses (q.modify j (· + d)) = .ok after ∧
      before.length = chain.length ∧ after.length = chain.length ∧
      (∀ i < j, after[i]? = before[i]?) ∧
      ∃ segment held moved, chain.segments[j]? = some segment ∧
        (segment.displacement d).apply = segment.body.motion.carry segment.axis d ∧
        before[j]? = some held ∧ after[j]? = some moved ∧
        ∀ i pose, j ≤ i → before[i]? = some pose → ∃ carried, after[i]? = some carried ∧
          carried = ((held.compose (segment.displacement d)).compose held.inverse).compose pose ∧
          moved.inverse.compose carried = held.inverse.compose pose := by
  have hq' : (q.modify j (· + d)).length = chain.length := by rw [List.length_modify, hq]
  obtain ⟨segment, hsegment⟩ : ∃ segment, chain.segments[j]? = some segment :=
    ⟨_, List.getElem?_eq_getElem (by rwa [length_segments])⟩
  have hjoint := hrigid segment (List.mem_of_getElem? hsegment)
  obtain ⟨factors, hfactors⟩ : ∃ factors : List RigidPose,
      factors.map RigidPose.pose = chain.stages q := CanLift.prf _ (rigid_stages hrigid)
  let turn : RigidPose := ⟨segment.displacement d, Segment.rigid_displacement hjoint.axis d⟩
  have hchanged : (factors.modify j (· * turn)).map RigidPose.pose = chain.stages (q.modify j (· + d)) := by
    rw [stages_modify hsegment hjoint, ← hfactors, map_pose_modify]
  have hlength : factors.length = chain.length := by
    rw [← length_stages hq, ← hfactors, List.length_map]
  have hbefore : ∀ i < chain.length, (accumulate .one (chain.stages q))[i]? =
      some (factors.take (i + 1)).prod.pose := by
    intro i hi
    rw [← hfactors]
    exact getElem?_accumulate_map_pose factors (by rwa [hlength])
  have hafter : ∀ i < chain.length, (accumulate .one (chain.stages (q.modify j (· + d))))[i]? =
      some ((factors.modify j (· * turn)).take (i + 1)).prod.pose := by
    intro i hi
    rw [← hchanged]
    exact getElem?_accumulate_map_pose _ (by rwa [List.length_modify, hlength])
  have hcarried : ∀ i, j ≤ i → i < chain.length → ((factors.modify j (· * turn)).take (i + 1)).prod =
      (factors.take (j + 1)).prod * turn * (factors.take (j + 1)).prod⁻¹ *
        (factors.take (i + 1)).prod :=
    fun i hji hi => prod_take_modify_mul factors hji (by rwa [hlength]) turn
  have hmoved : ((factors.modify j (· * turn)).take (j + 1)).prod = (factors.take (j + 1)).prod * turn := by
    rw [hcarried j (Nat.le_refl j) hj, inv_mul_cancel_right]
  refine ⟨_, _, poses_eq_ok hq, poses_eq_ok hq', ?_, ?_, ?_, segment, _, _, hsegment,
    funext (Segment.apply_displacement hjoint.axis d), hbefore j hj, hafter j hj, ?_⟩
  · rw [length_accumulate, length_stages hq]
  · rw [length_accumulate, length_stages hq']
  · intro i hi
    rw [hafter i (by omega), hbefore i (by omega), prod_take_modify_of_lt factors hi]
  · intro i pose hji hpose
    have hi : i < chain.length := by
      have hlong := (List.getElem?_eq_some_iff.mp hpose).1
      rwa [length_accumulate, length_stages hq] at hlong
    cases (hbefore i hi).symm.trans hpose
    refine ⟨_, hafter i hi, congrArg RigidPose.pose (hcarried i hji hi), ?_⟩
    have hsame : ((factors.modify j (· * turn)).take (j + 1)).prod⁻¹ *
        ((factors.modify j (· * turn)).take (i + 1)).prod =
          (factors.take (j + 1)).prod⁻¹ * (factors.take (i + 1)).prod := by
      rw [hmoved, hcarried i hji hi]
      group
    exact congrArg RigidPose.pose hsame

-- A turret on a tilted base, and a barrel that slides out of it.
noncomputable def turret : Segment ℝ :=
  ⟨⟨.turning, 1, .one, .diagonal 1, ⟨.unitZ, .zero⟩⟩, .ofRollPitchYaw ⟨1, 0, 0⟩ ⟨0, 0, 1⟩, .unitZ⟩

noncomputable def barrel : Segment ℝ :=
  ⟨⟨.sliding, 1, .one, .diagonal 1, .sliding .unitX⟩, ⟨⟨1, 0, 0⟩, .one⟩, .unitX⟩

noncomputable def cannon : Chain ℝ :=
  ⟨[("turret", turret), ("barrel", barrel)]⟩

theorem poses_modify_cannon : (∀ segment ∈ cannon.segments, segment.Rigid) ∧
    ∃ held carried moved taken, cannon.poses [1, 2] = .ok [held, carried] ∧
      cannon.poses [1 + 3, 2] = .ok [moved, taken] ∧
      taken = ((held.compose (turret.displacement 3)).compose held.inverse).compose carried ∧
      moved.inverse.compose taken = held.inverse.compose carried := by
  have hturret : turret.Rigid := by
    constructor
    · exact Pose.rigid_ofRollPitchYaw _ _
    · norm_num [turret, Vec3.unitZ, Vec3.dot]
  have hbarrel : barrel.Rigid := by
    constructor
    · exact Pose.rigid_one
    · norm_num [barrel, Vec3.unitX, Vec3.dot]
  have hrigid : ∀ segment ∈ cannon.segments, segment.Rigid := by
    simp [segments, cannon, hturret, hbarrel]
  obtain ⟨before, after, hbefore, hafter, hn, hm, -, segment, held, moved, hsegment, -, hheld, hmoved,
    hall⟩ := poses_modify cannon hrigid [1, 2] rfl 0 Nat.zero_lt_two 3
  obtain ⟨first, second, rfl⟩ := List.length_eq_two.mp hn
  obtain ⟨third, fourth, rfl⟩ := List.length_eq_two.mp hm
  cases hsegment
  cases hheld
  cases hmoved
  obtain ⟨taken, htaken, hcarried, hrelative⟩ := hall 1 second (Nat.zero_le 1) rfl
  cases htaken
  exact ⟨hrigid, _, _, _, _, hbefore, hafter, hcarried, hrelative⟩

end Chain

end Linkage
