import Linkage.Proofs.Chain.Leaves
import Linkage.Proofs.Chain.Transfer
import Linkage.Proofs.Lineage.Runs
import Linkage.Proofs.Registry.Acceptance
import Mathlib.Data.String.Basic

namespace Linkage

open Body Description Lineage

namespace Description

variable {α : Type} {robot other : Robot α} {presence otherPresence : Presence}

-- The same links and the same joints in another order.
structure Robot.Shuffled (robot other : Robot α) : Prop where
  links : robot.links.Perm other.links
  joints : robot.joints.Perm other.joints

-- The same is written out, in whatever order it was found.
structure Presence.Agrees (presence other : Presence) : Prop where
  inertial : ∀ name, name ∈ presence.inertial ↔ name ∈ other.inertial
  axis : ∀ name, name ∈ presence.axis ↔ name ∈ other.axis

theorem Presence.Agrees.symm (agrees : presence.Agrees otherPresence) :
    otherPresence.Agrees presence :=
  ⟨fun name => (agrees.inertial name).symm, fun name => (agrees.axis name).symm⟩

namespace Robot.Shuffled

theorem symm (shuffled : robot.Shuffled other) : other.Shuffled robot :=
  ⟨shuffled.links.symm, shuffled.joints.symm⟩

theorem holds_eq (shuffled : robot.Shuffled other) : robot.Holds = other.Holds := by
  funext parent child
  simp only [Holds, shuffled.joints.mem_iff]

theorem ancestor_eq (shuffled : robot.Shuffled other) : robot.Ancestor = other.Ancestor := by
  rw [Ancestor, Ancestor, shuffled.holds_eq]

theorem declares_eq (shuffled : robot.Shuffled other) : robot.Declares = other.Declares := by
  funext name
  simp only [Declares, shuffled.links.mem_iff]

theorem dangles_iff (shuffled : robot.Shuffled other) : robot.Dangles ↔ other.Dangles := by
  simp only [Dangles, shuffled.joints.mem_iff, shuffled.declares_eq]

theorem roots_perm (shuffled : robot.Shuffled other) : robot.roots.Perm other.roots := by
  have hheld : ∀ name, (robot.joints.all fun joint => joint.child != name) =
      other.joints.all fun joint => joint.child != name := by
    intro name
    rw [Bool.eq_iff_iff]
    simp only [List.all_eq_true, shuffled.joints.mem_iff]
  simp only [roots, hheld]
  exact (shuffled.links.map Link.name).filter _

theorem roots_eq_singleton_iff (shuffled : robot.Shuffled other) {root : String} :
    robot.roots = [root] ↔ other.roots = [root] := by
  rw [← List.perm_singleton, ← List.perm_singleton, shuffled.roots_perm.congr_left]

theorem sound (shuffled : robot.Shuffled other) (sound : robot.Sound) : other.Sound where
  distinct := (shuffled.links.map Link.name).nodup_iff.mp sound.distinct
  single := (shuffled.joints.map Joint.child).nodup_iff.mp sound.single
  attached := fun hdangles => sound.attached (shuffled.dangles_iff.mpr hdangles)
  acyclic := shuffled.ancestor_eq ▸ sound.acyclic
  rooted := shuffled.roots_perm.length_eq ▸ sound.rooted

-- The joint above a link is found wherever it comes, for there is no other.
theorem jointAbove?_eq (shuffled : robot.Shuffled other)
    (hsingle : (robot.joints.map Joint.child).Nodup) : robot.jointAbove? = other.jointAbove? := by
  have hsingle' := (shuffled.joints.map Joint.child).nodup_iff.mp hsingle
  funext link
  apply Option.ext
  intro joint
  rw [jointAbove?_eq_some_iff hsingle, jointAbove?_eq_some_iff hsingle', shuffled.joints.mem_iff]

theorem depth_eq (shuffled : robot.Shuffled other)
    (hsingle : (robot.joints.map Joint.child).Nodup) : robot.depth = other.depth := by
  have hclimb : ∀ fuel, robot.climb fuel = other.climb fuel := by
    intro fuel
    induction fuel with
    | zero => rfl
    | succ fuel ih =>
        funext link
        simp only [climb, shuffled.jointAbove?_eq hsingle, ih]
  funext link
  rw [depth, depth, shuffled.joints.length_eq, hclimb]

end Robot.Shuffled

end Description

namespace Registry

variable {α : Type} [Scalar α] {robot other : Robot α} {presence otherPresence : Presence}
  {pairs otherPairs : List (String × String)} {registry shuffledRegistry : Registry α}

theorem segment?_of_shuffled (shuffled : robot.Shuffled other)
    (agrees : presence.Agrees otherPresence) (hsingle : (robot.joints.map Joint.child).Nodup)
    (link : Link α) : robot.segment? presence link = other.segment? otherPresence link :=
  Robot.segment?_congr (congrFun (shuffled.jointAbove?_eq hsingle) link.name)
    fun joint _ => agrees.axis joint.name

theorem directionless_of_shuffled (shuffled : robot.Shuffled other)
    (agrees : presence.Agrees otherPresence) (hsingle : (robot.joints.map Joint.child).Nodup)
    (h : Directionless robot presence) : Directionless other otherPresence := by
  obtain ⟨link, hm, hinertial, hnone⟩ := h
  rw [segment?_of_shuffled shuffled agrees hsingle] at hnone
  exact ⟨link, shuffled.links.mem_iff.mp hm, (agrees.inertial _).mp hinertial, hnone⟩

theorem exists_ofPairs_of_shuffled (shuffled : robot.Shuffled other)
    (agrees : presence.Agrees otherPresence) (hpairs : pairs.Perm robot.pairs)
    (hother : otherPairs.Perm other.pairs)
    (h : ∃ registry, (ofPairs robot presence pairs).2 = .ok registry) :
    ∃ registry, (ofPairs other otherPresence otherPairs).2 = .ok registry := by
  obtain ⟨sound, hdirected⟩ := (exists_ofPairs_iff hpairs).mp h
  have sound' := shuffled.sound sound
  refine (exists_ofPairs_iff hother).mpr ⟨sound', fun hbad => hdirected ?_⟩
  exact directionless_of_shuffled shuffled.symm agrees.symm sound'.single hbad

namespace Made

theorem get?_of_shuffled (shuffled : robot.Shuffled other) (agrees : presence.Agrees otherPresence)
    (made : Made robot presence pairs registry)
    (otherMade : Made other otherPresence otherPairs shuffledRegistry) (name : String) :
    shuffledRegistry.get? name = registry.get? name := by
  apply Option.ext
  intro entry
  rw [made.get?_iff, otherMade.get?_iff]
  have hparent : ∀ link : Link α, robot.parentOf link = other.parentOf link := fun link =>
    Robot.parentOf_congr (congrFun (shuffled.jointAbove?_eq made.single) link.name)
  simp only [shuffled.links.mem_iff, agrees.inertial,
    segment?_of_shuffled shuffled agrees made.single, hparent]

end Made

-- Nothing depends on the order in which links, joints and pairs come, but for the order of the links
-- at one depth.
theorem ofPairs_shuffle (robot other : Robot α) (shuffled : robot.Shuffled other)
    (presence otherPresence : Presence) (agrees : presence.Agrees otherPresence)
    (pairs otherPairs : List (String × String)) (hpairs : pairs.Perm robot.pairs)
    (hother : otherPairs.Perm other.pairs) :
    ((∃ registry, (ofPairs robot presence pairs).2 = .ok registry) ↔
      ∃ registry, (ofPairs other otherPresence otherPairs).2 = .ok registry) ∧
    ∀ registry shuffledRegistry, (ofPairs robot presence pairs).2 = .ok registry →
      (ofPairs other otherPresence otherPairs).2 = .ok shuffledRegistry →
        shuffledRegistry.size = registry.size ∧
        (∀ name, shuffledRegistry.get? name = registry.get? name) ∧
        shuffledRegistry.root? = registry.root? ∧
        shuffledRegistry.leaves.Perm registry.leaves ∧
        (∀ leaf, Chain.toLink shuffledRegistry leaf = Chain.toLink registry leaf) ∧
        shuffledRegistry.order.Perm registry.order ∧
        sortedRuns other.depth shuffledRegistry.order = sortedRuns robot.depth registry.order := by
  refine ⟨⟨exists_ofPairs_of_shuffled shuffled agrees hpairs hother,
    exists_ofPairs_of_shuffled shuffled.symm agrees.symm hother hpairs⟩, ?_⟩
  intro registry shuffledRegistry h h'
  have made := made_of_ofPairs hpairs h
  have otherMade := made_of_ofPairs hother h'
  have hget := made.get?_of_shuffled shuffled agrees otherMade
  have hcontains : ∀ name, shuffledRegistry.contains name = registry.contains name := by
    intro name
    rw [contains, contains, hget]
  have horder := made.order_perm otherMade hcontains
  refine ⟨?_, hget, ?_, ?_, ?_, horder, ?_⟩
  · rw [otherMade.size_eq, made.size_eq, horder.length_eq]
  · apply Option.ext
    intro name
    rw [made.root?_eq_some_iff, otherMade.root?_eq_some_iff, hcontains,
      shuffled.roots_eq_singleton_iff]
  · rw [List.perm_ext_iff_of_nodup otherMade.leaves_nodup made.leaves_nodup]
    intro name
    simp only [made.mem_leaves_iff, otherMade.mem_leaves_iff, hget, hcontains]
  · intro leaf
    refine Chain.toLink_eq_of_transfer made otherMade (hcontains leaf) fun members hgrown => ?_
    refine hgrown.transfer (fun name entry hentry => (hget name).trans hentry) ?_
    intro _ _ parent _ _ hparent
    exact (hcontains parent).trans hparent
  · apply sortedRuns_of_perm horder _ otherMade.order_depth made.order_depth
    intro name _
    rw [shuffled.depth_eq made.single]

-- The two arms, told from the other end.
def mirrored : Robot Float where
  links := Chain.twoArms.links.reverse
  joints := Chain.twoArms.joints.reverse

def mirroredInertial : Presence :=
  ⟨Chain.twoArmsInertial.inertial.reverse, []⟩

theorem ofPairs_shuffle_mirrored :
    Chain.twoArms.Shuffled mirrored ∧ Chain.twoArmsInertial.Agrees mirroredInertial ∧
      Chain.twoArms.pairs.reverse.Perm Chain.twoArms.pairs ∧
      ∃ registry shuffledRegistry,
        (ofPairs Chain.twoArms Chain.twoArmsInertial Chain.twoArms.pairs.reverse).2 = .ok registry ∧
        (ofPairs mirrored mirroredInertial mirrored.pairs.reverse).2 = .ok shuffledRegistry ∧
        registry.order = ["torso", "right", "left", "hand"] ∧
        shuffledRegistry.order = ["torso", "left", "right", "hand"] ∧
        sortedRuns mirrored.depth shuffledRegistry.order =
          sortedRuns Chain.twoArms.depth registry.order := by
  have shuffled : Chain.twoArms.Shuffled mirrored :=
    ⟨(List.reverse_perm _).symm, (List.reverse_perm _).symm⟩
  have agrees : Chain.twoArmsInertial.Agrees mirroredInertial :=
    ⟨fun _ => List.mem_reverse.symm, fun _ => .rfl⟩
  have hpairs : Chain.twoArms.pairs.reverse.Perm Chain.twoArms.pairs := List.reverse_perm _
  have horder : (ofPairs Chain.twoArms Chain.twoArmsInertial Chain.twoArms.pairs.reverse).2.map
      order = .ok ["torso", "right", "left", "hand"] := by rfl
  have horder' : (ofPairs mirrored mirroredInertial mirrored.pairs.reverse).2.map order =
      .ok ["torso", "left", "right", "hand"] := by rfl
  obtain ⟨hiff, hall⟩ := ofPairs_shuffle Chain.twoArms mirrored shuffled Chain.twoArmsInertial
    mirroredInertial agrees _ _ hpairs (List.reverse_perm _)
  cases h : (ofPairs Chain.twoArms Chain.twoArmsInertial Chain.twoArms.pairs.reverse).2 with
  | error failure => simp [h, Except.map] at horder
  | ok registry =>
      obtain ⟨shuffledRegistry, h'⟩ := hiff.mp ⟨registry, h⟩
      simp only [h, h', Except.map, Except.ok.injEq] at horder horder'
      obtain ⟨-, -, -, -, -, -, hruns⟩ := hall registry shuffledRegistry h h'
      exact ⟨shuffled, agrees, hpairs, registry, shuffledRegistry, rfl, h', horder, horder', hruns⟩

end Registry

end Linkage
