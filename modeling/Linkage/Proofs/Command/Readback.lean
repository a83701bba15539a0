import Mathlib.Analysis.SpecialFunctions.Trigonometric.Basic
import Linkage.Proofs.Chain.Rigidity
import Linkage.Proofs.Command.Outcome
import Linkage.Proofs.Space.Angles

namespace Linkage

open Body Description Space

-- A pose in numbers: where it is, and its roll, pitch and yaw.
def Space.Pose.toOrigin {α : Type} [Scalar α] (pose : Pose α) : Origin α :=
  ⟨pose.position, pose.rotation.toMatrix.rollPitchYaw⟩

theorem Space.Pose.toMatrix_toOrigin {pose : Pose ℝ} (h : pose.Rigid) :
    pose.toOrigin.pose.rotation.toMatrix = pose.rotation.toMatrix :=
  (Quat.toMatrix_ofRollPitchYaw _).trans (Quat.proper_toMatrix h).ofRollPitchYaw_rollPitchYaw

namespace Chain

-- The links of a chain, each with its pose in numbers.
def placements {α : Type} [Scalar α] (chain : Chain α) (q : List α) :
    Except Failure (List (String × Origin α)) :=
  (chain.poses q).map fun poses => chain.names.zip (poses.map Pose.toOrigin)

-- All links of a chain are placed in their order, and the numbers of each are an origin of its pose.
def ReadsBack (chain : Chain ℝ) (q : List ℝ) : Prop :=
  ∃ poses placed, chain.poses q = .ok poses ∧ chain.placements q = .ok placed ∧
    placed.map Prod.fst = chain.names ∧
    List.Forall₂ (fun pose (origin : Origin ℝ) => origin.pose.position = pose.position ∧
      origin.pose.rotation.toMatrix = pose.rotation.toMatrix) poses (placed.map Prod.snd)

theorem placements_eq_ok {α : Type} [Scalar α] {chain : Chain α} {q : List α} {poses : List (Pose α)}
    (h : chain.poses q = .ok poses) :
    chain.placements q = .ok (chain.names.zip (poses.map Pose.toOrigin)) := by
  rw [placements, h]
  rfl

theorem readsBack {chain : Chain ℝ} {q : List ℝ} (hrigid : ∀ segment ∈ chain.segments, segment.Rigid)
    (hq : q.length = chain.length) : chain.ReadsBack q := by
  have hposes := poses_eq_ok hq
  have hlength : (accumulate .one (chain.stages q)).length = chain.names.length := by
    rw [length_accumulate, length_stages hq, names, List.length_map, length]
  refine ⟨_, _, hposes, placements_eq_ok hposes, ?_, ?_⟩
  · exact List.map_fst_zip (by simp [hlength])
  · rw [List.map_snd_zip (by simp [hlength]), List.forall₂_map_right_iff, List.forall₂_same]
    intro pose hm
    have hpose := rigid_accumulate Pose.rigid_one (rigid_stages hrigid) pose hm
    exact ⟨rfl, Pose.toMatrix_toOrigin hpose⟩

end Chain

namespace Command

-- A link with the numbers of its pose, which are rounded here.
def placementLine (name : String) (origin : Origin Float) : String :=
  let column := padRight nameWidth name
  let position := shortAll [origin.position.x, origin.position.y, origin.position.z]
  let orientation := shortAll [origin.angles.x, origin.angles.y, origin.angles.z]
  s!"{column} xyz: {position} rpy: {orientation}"

def placementLines (placed : List (String × Origin Float)) : List String :=
  placed.map fun (name, origin) => placementLine name origin

theorem poseLine_eq (name : String) (pose : Pose Float) :
    poseLine name pose = placementLine name pose.toOrigin :=
  rfl

theorem zipWith_poseLine (names : List String) (poses : List (Pose Float)) :
    List.zipWith poseLine names poses = placementLines (names.zip (poses.map Pose.toOrigin)) := by
  have hline : poseLine = fun name pose => placementLine name pose.toOrigin :=
    funext₂ poseLine_eq
  rw [placementLines, List.zip, List.map_zipWith, List.zipWith_map_right, hline]

variable {reader : Reader} {lookup : String → Except FileFault String} {arguments : Arguments}
  {registry : Registry Float} {leaf : String} {chain : Chain Float} {q : List Float}

-- The last lines of a run are the placements of its chain.
theorem exists_run_eq (hfile : (Registry.ofFile reader lookup arguments.path).2 = .ok registry)
    (hleaf : arguments.leaf = some leaf) (hchain : Chain.toLink registry leaf = .ok chain)
    (hnone : arguments.coordinates = [] → q = List.replicate chain.length 0.0)
    (hsome : arguments.coordinates ≠ [] → q = arguments.coordinates) (hq : q.length = chain.length) :
    ∃ before placed, chain.placements q = .ok placed ∧
      run reader lookup arguments = ⟨0, before ++ chainLine chain :: placementLines placed⟩ := by
  have hposes := Chain.poses_eq_ok hq
  have hfollow := followChain_of_poses hnone hsome hposes
  rw [zipWith_poseLine] at hfollow
  refine ⟨(Registry.ofFile reader lookup arguments.path).1.filterMap eventLine? ++
    (listing arguments registry).map Line.text, _, Chain.placements_eq_ok hposes, ?_⟩
  simp [run, hfile, showRegistry_of_toLink hleaf hchain, hfollow, Outcome.after]

-- The numbers that the lines of a run are rounded from make the poses of the chain again, also where
-- roll and yaw turn about one line.
theorem placements_readBack :
    (∀ (chain : Chain ℝ) q, (∀ segment ∈ chain.segments, segment.Rigid) → q.length = chain.length →
      chain.ReadsBack q) ∧
    (∀ robot presence pairs (registry : Registry ℝ) name chain q, pairs.Perm robot.pairs →
      (Registry.ofPairs robot presence pairs).2 = .ok registry →
        Chain.toLink registry name = .ok chain → q.length = chain.length → chain.ReadsBack q) ∧
    ∀ reader lookup arguments registry leaf (chain : Chain Float) q,
      (Registry.ofFile reader lookup arguments.path).2 = .ok registry → arguments.leaf = some leaf →
        Chain.toLink registry leaf = .ok chain →
          (arguments.coordinates = [] → q = List.replicate chain.length 0.0) →
            (arguments.coordinates ≠ [] → q = arguments.coordinates) → q.length = chain.length →
              ∃ before placed, chain.placements q = .ok placed ∧
                run reader lookup arguments =
                  ⟨0, before ++ chainLine chain :: placementLines placed⟩ := by
  refine ⟨fun _ _ => Chain.readsBack, ?_, fun _ _ _ _ _ _ _ => exists_run_eq⟩
  intro robot presence pairs registry name chain q hpairs h hchain hq
  exact Chain.readsBack (Chain.rigid_of_toLink (Registry.made_of_ofPairs hpairs h) hchain) hq

-- A mast that pitches up.
noncomputable def mast : Segment ℝ :=
  ⟨⟨.turning, 1, .one, .diagonal 1, ⟨⟨0, 1, 0⟩, .zero⟩⟩, .one, ⟨0, 1, 0⟩⟩

-- The mast at a quarter turn, the flywheel, and the first link of the twin joints.
theorem placements_readBack_mast : mast.Rigid ∧
    (mast.transform (Real.pi / 2)).rotation.toMatrix.third.x = -1 ∧
    Chain.ReadsBack ⟨[("mast", mast)]⟩ [Real.pi / 2] ∧
    (∃ registry chain, (Registry.ofPairs Rigid.flywheel ⟨["flywheel"], []⟩ []).2 = .ok registry ∧
      Chain.toLink registry "flywheel" = .ok chain ∧
      chain.ReadsBack (List.replicate chain.length 1)) ∧
    ∃ registry chain before placed, (Registry.ofText .plain Registry.twin).2 = .ok registry ∧
      Chain.toLink registry "b" = .ok chain ∧
      chain.placements (List.replicate chain.length 0.0) = .ok placed ∧
      run .plain (fun _ => .ok Registry.twin) ⟨"twin.urdf", some "b", []⟩ =
        ⟨0, before ++ chainLine chain :: placementLines placed⟩ := by
  obtain ⟨hrigid, hread, hrun⟩ := placements_readBack
  have hunit : mast.axis.dot mast.axis = 1 := by simp [mast, Vec3.dot]
  have hmast : mast.Rigid := ⟨Pose.rigid_one, hunit⟩
  have hup : (mast.transform (Real.pi / 2)).rotation.toMatrix.third.x = -1 := by
    have htransform : mast.transform (Real.pi / 2) = ⟨.zero, .ofAxisAngle mast.axis (Real.pi / 2)⟩ :=
      Pose.one_compose _
    rw [htransform, Quat.toMatrix_ofAxisAngle hunit]
    simp only [mast, Mat3.rotation_unitY, Mat3.aboutY, Mat3.ofRows, Real.sin_pi_div_two]
  refine ⟨hmast, hup, hrigid _ _ (by simpa [Chain.segments] using hmast) rfl, ?_, ?_⟩
  · obtain ⟨registry, hregistry, hmem⟩ := Rigid.exists_ofPairs_flywheel
    obtain ⟨chain, hchain⟩ := Chain.exists_toLink (Registry.made_of_ofPairs (.refl _) hregistry) hmem
    exact ⟨registry, chain, hregistry, hchain,
      hread _ _ _ _ _ _ _ (.refl _) hregistry hchain List.length_replicate⟩
  · obtain ⟨registry, entry, hregistry, hget⟩ := Registry.exists_ofText_twin
    obtain ⟨robot, presence, -, hrobot⟩ := Registry.ofText_eq_ok_iff.mp hregistry
    have hmem : registry.contains "b" = true := Option.isSome_iff_exists.mpr ⟨entry, hget⟩
    obtain ⟨chain, hchain⟩ := Chain.exists_toLink (Registry.made_of_ofRobot hrobot) hmem
    obtain ⟨before, placed, hplaced, hlines⟩ :=
      hrun .plain (fun _ => .ok Registry.twin) ⟨"twin.urdf", some "b", []⟩ registry "b" chain _ hregistry rfl
        hchain (fun _ => rfl) (fun hne => absurd rfl hne) List.length_replicate
    exact ⟨registry, chain, before, placed, hregistry, hchain, hplaced, hlines⟩

end Command

end Linkage
