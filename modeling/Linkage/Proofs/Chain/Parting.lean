import Linkage.Proofs.Chain.Leaves
import Linkage.Proofs.Chain.Poses

namespace Linkage.Chain

open Body Description Space

variable {α : Type} {registry : Registry α}

-- Two chains that go over the same first `k` links, and have none in common after these.
structure Parting (first second : Chain α) (k : Nat) : Prop where
  le_first : k ≤ first.length
  le_second : k ≤ second.length
  names_eq : first.names.take k = second.names.take k
  segments_eq : first.segments.take k = second.segments.take k
  apart : ∀ name ∈ first.names.drop k, name ∉ second.names.drop k

namespace Grown

variable {name tip : String} {members others : List (String × Segment α)}

-- A chain runs along another exactly if the other passes its tip.
theorem prefix_iff (h : Grown registry name members) (hother : Grown registry tip others) :
    members <+: others ↔ name ∈ others.map Prod.fst := by
  constructor
  · intro hstart
    exact (hstart.map Prod.fst).subset h.mem_names
  · intro hm
    obtain ⟨upper, hupper, hstart⟩ := hother.exists_upper hm
    rwa [h.unique hupper]

-- The induction is on how the first chain grows: it stays apart from the other until a link of it is
-- passed by the other, and is then all shared.
theorem exists_shared (h : Grown registry name members) (hother : Grown registry tip others) :
    ∃ shared lower rest, members = shared ++ lower ∧ others = shared ++ rest ∧
      ∀ link ∈ lower.map Prod.fst, link ∉ others.map Prod.fst := by
  induction h with
  | @base name entry hget hnone =>
      by_cases hm : name ∈ others.map Prod.fst
      · obtain ⟨rest, hrest⟩ := ((base hget hnone).prefix_iff hother).mpr hm
        exact ⟨_, [], rest, (List.append_nil _).symm, hrest.symm, by simp⟩
      · exact ⟨[], _, others, rfl, rfl, by simpa using hm⟩
  | @next parent name entry upper hupper hget hparent ih =>
      by_cases hm : name ∈ others.map Prod.fst
      · obtain ⟨rest, hrest⟩ := ((next hupper hget hparent).prefix_iff hother).mpr hm
        exact ⟨_, [], rest, (List.append_nil _).symm, hrest.symm, by simp⟩
      · obtain ⟨shared, lower, rest, rfl, hrest, hapart⟩ := ih
        refine ⟨shared, lower ++ [(name, entry.segment)], rest, List.append_assoc .., hrest, ?_⟩
        intro link hl
        rw [List.map_append, List.mem_append] at hl
        rcases hl with hl | hl
        · exact hapart link hl
        · cases List.mem_singleton.mp hl
          exact hm

end Grown

variable {first second : Chain α} {k : Nat}

theorem parting_of_shared {shared lower rest : List (String × Segment α)}
    (hfirst : first.members = shared ++ lower) (hsecond : second.members = shared ++ rest)
    (hapart : ∀ link ∈ lower.map Prod.fst, link ∉ second.names) :
    Parting first second shared.length where
  le_first := by simp [length, hfirst]
  le_second := by simp [length, hsecond]
  names_eq := by simp [names, hfirst, hsecond]
  segments_eq := by simp [segments, hfirst, hsecond]
  apart := by
    intro link hm hother
    have hlower : link ∈ lower.map Prod.fst := by simpa [names, hfirst] using hm
    exact hapart link hlower (List.mem_of_mem_drop hother)

variable [Scalar α]

-- What the shared links do depends on their own coordinates alone.
theorem Parting.poses_take_eq (parting : Parting first second k) {q other : List α}
    (hq : q.length = first.length) (hother : other.length = second.length)
    (heq : q.take k = other.take k) :
    ∃ poses otherPoses, first.poses q = .ok poses ∧ second.poses other = .ok otherPoses ∧
      poses.length = first.length ∧ otherPoses.length = second.length ∧
      poses.take k = otherPoses.take k := by
  refine ⟨_, _, poses_eq_ok hq, poses_eq_ok hother, ?_, ?_, ?_⟩
  · rw [length_accumulate, length_stages hq]
  · rw [length_accumulate, length_stages hother]
  · rw [take_accumulate, take_accumulate, stages, stages, List.take_zipWith, List.take_zipWith,
      parting.segments_eq, heq]

-- Chains of one registry part once, and where they have not yet parted they are in the same places.
theorem toLink_parting (robot : Robot α) (presence : Presence) (pairs : List (String × String))
    (hpairs : pairs.Perm robot.pairs) (registry : Registry α)
    (h : (Registry.ofPairs robot presence pairs).2 = .ok registry) (firstTip secondTip : String)
    (hfirst : registry.contains firstTip = true) (hsecond : registry.contains secondTip = true) :
    ∃ first second k, toLink registry firstTip = .ok first ∧
      toLink registry secondTip = .ok second ∧
      Parting first second k ∧
      (first.members <+: second.members ↔ firstTip ∈ second.names) ∧
      ∀ q other, q.length = first.length → other.length = second.length →
        q.take k = other.take k → ∃ poses otherPoses,
          first.poses q = .ok poses ∧ second.poses other = .ok otherPoses ∧
          poses.length = first.length ∧ otherPoses.length = second.length ∧
          poses.take k = otherPoses.take k := by
  have made := Registry.made_of_ofPairs hpairs h
  obtain ⟨first, hfirstChain⟩ := exists_toLink made hfirst
  obtain ⟨second, hsecondChain⟩ := exists_toLink made hsecond
  have hgrown := (toLink_eq_ok_iff made).mp hfirstChain
  have hother := (toLink_eq_ok_iff made).mp hsecondChain
  obtain ⟨shared, lower, rest, hlower, hrest, hapart⟩ := hgrown.exists_shared hother
  have hparting := parting_of_shared hlower hrest hapart
  refine ⟨first, second, shared.length, hfirstChain, hsecondChain, hparting,
    hgrown.prefix_iff hother, ?_⟩
  intro q other hq hotherLength heq
  exact hparting.poses_take_eq hq hotherLength heq

theorem toLink_parting_twoArms :
    twoArms.pairs.reverse.Perm twoArms.pairs ∧ ∃ registry first second,
      (Registry.ofPairs twoArms twoArmsInertial twoArms.pairs.reverse).2 = .ok registry ∧
      registry.contains "left" = true ∧ registry.contains "right" = true ∧
      toLink registry "left" = .ok first ∧ toLink registry "right" = .ok second ∧
      first.names = ["torso", "left"] ∧ second.names = ["torso", "right"] ∧
      Parting first second 1 ∧ ∃ poses otherPoses,
        first.poses [0.5, 1.5] = .ok poses ∧ second.poses [0.5, 2.5] = .ok otherPoses ∧
        poses.length = 2 ∧ otherPoses.length = 2 ∧ poses.take 1 = otherPoses.take 1 := by
  have hpairs : twoArms.pairs.reverse.Perm twoArms.pairs := List.reverse_perm _
  have hleft : ((Registry.ofPairs twoArms twoArmsInertial twoArms.pairs.reverse).2 >>= fun registry =>
      (toLink registry "left").map names) = .ok ["torso", "left"] := by rfl
  have hright : ((Registry.ofPairs twoArms twoArmsInertial twoArms.pairs.reverse).2 >>= fun registry =>
      (toLink registry "right").map names) = .ok ["torso", "right"] := by rfl
  cases hregistry : (Registry.ofPairs twoArms twoArmsInertial twoArms.pairs.reverse).2 with
  | error failure => simp [hregistry, bind, Except.bind] at hleft
  | ok registry =>
      simp only [hregistry, bind, Except.bind] at hleft hright
      have hcontains : ∀ name ∈ ["left", "right"], registry.contains name = true := by
        intro name hm
        rw [(Registry.made_of_ofPairs hpairs hregistry).contains_iff]
        unfold Robot.Declares
        decide +revert
      obtain ⟨first, second, k, hfirst, hsecond, hparting, -, hposes⟩ :=
        toLink_parting twoArms twoArmsInertial _ hpairs registry hregistry "left" "right"
          (hcontains _ (by decide)) (hcontains _ (by decide))
      simp only [hfirst, hsecond, Except.map, Except.ok.injEq] at hleft hright
      have hlength : first.length = 2 := by simpa [names, length] using congrArg List.length hleft
      have hotherLength : second.length = 2 := by
        simpa [names, length] using congrArg List.length hright
      have hk : k = 1 := by
        have hle : k ≤ 2 := hlength ▸ hparting.le_first
        have hsome : k ≠ 0 := by
          rintro rfl
          exact hparting.apart "torso" (by simp [hleft]) (by simp [hright])
        have hnotAll : k ≠ 2 := by
          rintro rfl
          simpa [hleft, hright] using hparting.names_eq
        omega
      subst hk
      have hshared := hposes [0.5, 1.5] [0.5, 2.5] (by simp [hlength]) (by simp [hotherLength]) (by simp)
      rw [hlength, hotherLength] at hshared
      exact ⟨hpairs, registry, first, second, rfl, hcontains _ (by decide), hcontains _ (by decide),
        hfirst, hsecond, hleft, hright, hparting, hshared⟩

end Linkage.Chain
