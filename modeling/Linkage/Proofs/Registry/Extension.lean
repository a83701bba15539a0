import Linkage.Proofs.Chain.Leaves
import Linkage.Proofs.Chain.Transfer
import Linkage.Proofs.Description.Extension
import Linkage.Proofs.Lineage.Runs
import Mathlib.Data.String.Basic

namespace Linkage.Registry

open Body Description Lineage

variable {α : Type} [Scalar α] {robot extended : Robot α} {presence extendedPresence : Presence}
  {link : Link α} {joint : Joint α} {pairs extendedPairs : List (String × String)}
  {registry grown : Registry α}

theorem mem_inertial_of_directionless
    (extension : robot.Extension extended presence extendedPresence link joint)
    (made : Made robot presence pairs registry) (h : Directionless extended extendedPresence) :
    link.name ∈ extendedPresence.inertial := by
  obtain ⟨other, hm, hinertial, hnone⟩ := h
  rcases extension.mem_links.mp hm with rfl | hm
  · exact hinertial
  · rw [extension.segment?_eq made.sound hm] at hnone
    have hinertial' := (extension.inertial _ ⟨other, hm, rfl⟩).mpr hinertial
    exact (made.directed ⟨other, hm, hinertial', hnone⟩).elim

namespace Made

variable (extension : robot.Extension extended presence extendedPresence link joint)
  (made : Made robot presence pairs registry)
  (grownMade : Made extended extendedPresence extendedPairs grown)

include extension made

theorem not_contains_new : registry.contains link.name = false := by
  rw [Bool.eq_false_iff, ne_eq, made.contains_iff]
  exact fun h => extension.fresh h.1

theorem ne_new {name : String} (hmem : registry.contains name = true) : name ≠ link.name :=
  extension.ne_of_declares (made.contains_iff.mp hmem).1

include grownMade

-- What was there before has the entry that it had, and none if it had none.
theorem get?_of_ne_new {name : String} (hne : name ≠ link.name) :
    grown.get? name = registry.get? name := by
  apply Option.ext
  intro entry
  rw [grownMade.get?_iff, made.get?_iff]
  have hparent : ∀ other ∈ robot.links, extended.parentOf other = robot.parentOf other :=
    fun other hm => Robot.parentOf_congr
      (extension.jointAbove?_of_ne made.sound (extension.ne_of_declares ⟨other, hm, rfl⟩))
  constructor
  · rintro ⟨other, hm, rfl, hinertial, hsegment, habove⟩
    have hm := (extension.mem_links.mp hm).resolve_left fun hnew => hne (congrArg Link.name hnew)
    rw [extension.segment?_eq made.sound hm] at hsegment
    rw [hparent other hm] at habove
    exact ⟨other, hm, rfl, (extension.inertial _ ⟨other, hm, rfl⟩).mpr hinertial, hsegment, habove⟩
  · rintro ⟨other, hm, rfl, hinertial, hsegment, habove⟩
    rw [← extension.segment?_eq made.sound hm] at hsegment
    rw [← hparent other hm] at habove
    exact ⟨other, extension.mem_links.mpr (.inr hm), rfl,
      (extension.inertial _ ⟨other, hm, rfl⟩).mp hinertial, hsegment, habove⟩

theorem contains_of_ne_new {name : String} (hne : name ≠ link.name) :
    grown.contains name = registry.contains name := by
  rw [contains, contains, made.get?_of_ne_new extension grownMade hne]

omit made in
theorem contains_new_iff :
    grown.contains link.name = true ↔ link.name ∈ extendedPresence.inertial := by
  rw [grownMade.contains_iff, extension.declares_iff]
  simp

theorem root?_of_extension : grown.root? = registry.root? := by
  apply Option.ext
  intro root
  rw [grownMade.root?_eq_some_iff, made.root?_eq_some_iff, extension.roots_eq_singleton_iff]
  refine and_congr_right fun hroots => ?_
  have hroot : root ∈ robot.roots := by simp [hroots]
  have hdeclared : robot.Declares root := List.mem_map.mp (List.mem_filter.mp hroot).1
  rw [made.contains_of_ne_new extension grownMade (extension.ne_of_declares hdeclared)]

theorem grown_of_extension {name : String} {members : List (String × Segment α)}
    (h : Chain.Grown registry name members) : Chain.Grown grown name members := by
  refine h.transfer ?_ ?_
  · intro name entry hget
    have hmem : registry.contains name = true := Option.isSome_iff_exists.mpr ⟨entry, hget⟩
    rw [made.get?_of_ne_new extension grownMade (made.ne_new extension hmem), hget]
  · intro name entry parent hget hparent hnone
    obtain ⟨other, hm, rfl, -⟩ := (made.parent_eq_some_iff hget).mp hparent
    rwa [made.contains_of_ne_new extension grownMade (extension.parent_ne made.sound hm)]

theorem toLink_of_ne_new {name : String} (hne : name ≠ link.name) :
    Chain.toLink grown name = Chain.toLink registry name :=
  Chain.toLink_eq_of_transfer made grownMade (made.contains_of_ne_new extension grownMade hne)
    fun _ h => made.grown_of_extension extension grownMade h

omit made in
theorem parent_new {entry : Entry α} (hget : grown.get? link.name = some entry) :
    entry.parent = some joint.parent := by
  rw [grownMade.parent_eq_some_iff hget, extension.holds_iff]
  exact .inl ⟨rfl, rfl⟩

theorem toLink_new {entry : Entry α} (hget : grown.get? link.name = some entry) {chain : Chain α}
    (hchain : Chain.toLink registry joint.parent = .ok chain) :
    Chain.toLink grown link.name = .ok ⟨chain.members ++ [(link.name, entry.segment)]⟩ := by
  have hupper := made.grown_of_extension extension grownMade
    ((Chain.toLink_eq_ok_iff made).mp hchain)
  exact (Chain.toLink_eq_ok_iff grownMade).mpr
    (hupper.next hget (grownMade.parent_new extension hget))

theorem toLink_new_alone {entry : Entry α} (hget : grown.get? link.name = some entry)
    (hnone : registry.contains joint.parent = false) :
    Chain.toLink grown link.name = .ok ⟨[(link.name, entry.segment)]⟩ := by
  rw [Chain.toLink_eq_ok_iff grownMade]
  refine .base hget fun parent hparent => ?_
  cases (grownMade.parent_new extension hget).symm.trans hparent
  rwa [made.contains_of_ne_new extension grownMade (extension.ne_of_declares extension.parent)]

theorem keys_of_extension : (grown.entries.map Prod.fst).Perm
    (if link.name ∈ extendedPresence.inertial then link.name :: registry.entries.map Prod.fst
      else registry.entries.map Prod.fst) := by
  have hold : (robot.links.map Link.name).filter (extendedPresence.inertial.contains ·) =
      (robot.links.map Link.name).filter (presence.inertial.contains ·) := by
    apply List.filter_congr
    intro name hm
    rw [Bool.eq_iff_iff, List.contains_iff_mem, List.contains_iff_mem,
      extension.inertial name (List.mem_map.mp hm)]
  rw [grownMade.keys_eq, made.keys_eq, ← hold]
  refine (extension.names_perm.filter _).trans (List.Perm.of_eq ?_)
  by_cases hnew : link.name ∈ extendedPresence.inertial
  · simp [hnew]
  · simp [hnew]

-- Without inertial data of its own, what is new leaves no trace.
theorem get?_of_bare (hbare : link.name ∉ extendedPresence.inertial) (name : String) :
    grown.get? name = registry.get? name := by
  by_cases hne : name = link.name
  · subst hne
    have hnone := made.not_contains_new extension
    have hnone' : grown.contains link.name = false := by
      rw [Bool.eq_false_iff, ne_eq, grownMade.contains_new_iff extension]
      exact hbare
    simp only [contains, Option.isSome_eq_false_iff, Option.isNone_iff_eq_none] at hnone hnone'
    rw [hnone, hnone']
  · exact made.get?_of_ne_new extension grownMade hne

theorem depth_of_extension {name : String} (hmem : registry.contains name = true) :
    extended.depth name = robot.depth name := by
  obtain ⟨other, hm, -⟩ := (made.contains_iff.mp hmem).1
  obtain ⟨root, hroot⟩ := made.exists_root (List.ne_nil_of_mem hm)
  have hb := made.below_depth hroot hmem
  rw [← Robot.kinship_below made.perm] at hb
  have tree := grownMade.roots_eq_iff.mp (extension.roots_eq_singleton_iff.mpr hroot)
  exact Robot.depth_of_below grownMade.perm tree (extension.below_mono made.perm grownMade.perm hb)

theorem sortedRuns_of_bare (hbare : link.name ∉ extendedPresence.inertial) :
    sortedRuns extended.depth grown.order = sortedRuns robot.depth registry.order := by
  have hcontains : ∀ name, grown.contains name = registry.contains name := by
    intro name
    rw [contains, contains, made.get?_of_bare extension grownMade hbare]
  refine sortedRuns_of_perm (made.order_perm grownMade hcontains) ?_ grownMade.order_depth made.order_depth
  intro name hm
  rw [grownMade.mem_order, hcontains] at hm
  exact made.depth_of_extension extension grownMade hm

theorem mem_leaves_of_bare (hbare : link.name ∉ extendedPresence.inertial) (name : String) :
    name ∈ grown.leaves ↔ name ∈ registry.leaves := by
  rw [made.mem_leaves_iff, grownMade.mem_leaves_iff, contains, contains]
  simp only [made.get?_of_bare extension grownMade hbare]

-- What is new is held by a link that may have been a leaf, and holds nothing itself.
theorem mem_leaves_of_new (hnew : link.name ∈ extendedPresence.inertial) (name : String) :
    name ∈ grown.leaves ↔ name = link.name ∨ (name ∈ registry.leaves ∧ name ≠ joint.parent) := by
  rw [made.mem_leaves_iff, grownMade.mem_leaves_iff]
  have hmem := (grownMade.contains_new_iff extension).mpr hnew
  by_cases hne : name = link.name
  · subst hne
    refine iff_of_true ⟨hmem, ?_⟩ (.inl rfl)
    intro child entry hget hparent
    exact extension.not_holds made.sound child ((grownMade.parent_eq_some_iff hget).mp hparent)
  · rw [made.contains_of_ne_new extension grownMade hne]
    constructor
    · rintro ⟨hcontains, hleaf⟩
      refine .inr ⟨⟨hcontains, ?_⟩, ?_⟩
      · intro child entry hget
        have hchild : registry.contains child = true := Option.isSome_iff_exists.mpr ⟨entry, hget⟩
        apply hleaf child entry
        rw [made.get?_of_ne_new extension grownMade (made.ne_new extension hchild), hget]
      · rintro rfl
        obtain ⟨entry, hget⟩ := Option.isSome_iff_exists.mp hmem
        exact hleaf _ entry hget (grownMade.parent_new extension hget)
    · rintro (hnew | ⟨⟨hcontains, hleaf⟩, hparent⟩)
      · exact absurd hnew hne
      · refine ⟨hcontains, ?_⟩
        intro child entry hget
        by_cases hchild : child = link.name
        · subst hchild
          rw [grownMade.parent_new extension hget]
          exact fun h => hparent (Option.some.inj h).symm
        · rw [made.get?_of_ne_new extension grownMade hchild] at hget
          exact hleaf child entry hget

end Made

-- Growing at a tip leaves all that was there as it was. A link with inertial data takes the place of a
-- leaf that it is held by, and one without them is not noticed.
theorem ofPairs_extension (robot extended : Robot α) (presence extendedPresence : Presence)
    (link : Link α) (joint : Joint α)
    (extension : robot.Extension extended presence extendedPresence link joint)
    (pairs extendedPairs : List (String × String)) (hpairs : pairs.Perm robot.pairs)
    (hextended : extendedPairs.Perm extended.pairs) (registry : Registry α)
    (h : (ofPairs robot presence pairs).2 = .ok registry) :
    ((ofPairs extended extendedPresence extendedPairs).2 = .error .degenerateAxis ∧
      link.name ∈ extendedPresence.inertial) ∨
    ∃ grown, (ofPairs extended extendedPresence extendedPairs).2 = .ok grown ∧
      (∀ name, name ≠ link.name → grown.get? name = registry.get? name) ∧
      grown.root? = registry.root? ∧
      (∀ name, name ≠ link.name →
        Chain.toLink grown name = Chain.toLink registry name ∧
        ∀ q, (Chain.toLink grown name >>= fun chain => chain.poses q) =
          Chain.toLink registry name >>= fun chain => chain.poses q) ∧
      (link.name ∉ extendedPresence.inertial →
        (∀ name, grown.get? name = registry.get? name) ∧
        grown.size = registry.size ∧
        (∀ name, name ∈ grown.leaves ↔ name ∈ registry.leaves) ∧
        (∀ name, registry.contains name = true → extended.depth name = robot.depth name) ∧
        sortedRuns extended.depth grown.order = sortedRuns robot.depth registry.order) ∧
      (link.name ∈ extendedPresence.inertial →
        grown.size = registry.size + 1 ∧
        (∀ name, name ∈ grown.leaves ↔
          name = link.name ∨ (name ∈ registry.leaves ∧ name ≠ joint.parent)) ∧
        ∃ entry, grown.get? link.name = some entry ∧ entry.parent = some joint.parent ∧
          (∀ chain, Chain.toLink registry joint.parent = .ok chain →
            Chain.toLink grown link.name =
              .ok ⟨chain.members ++ [(link.name, entry.segment)]⟩) ∧
          (registry.contains joint.parent = false →
            Chain.toLink grown link.name = .ok ⟨[(link.name, entry.segment)]⟩)) := by
  have made := made_of_ofPairs hpairs h
  rcases ofPairs_of_sound extendedPresence (extension.sound made.sound) hextended with
    ⟨he, hbad⟩ | ⟨⟨grown, hgrown⟩, -⟩
  · exact .inl ⟨he, mem_inertial_of_directionless extension made hbad⟩
  · have grownMade := made_of_ofPairs hextended hgrown
    have hkeys := (made.keys_of_extension extension grownMade).length_eq
    refine .inr ⟨grown, hgrown, fun _ hne => made.get?_of_ne_new extension grownMade hne,
      made.root?_of_extension extension grownMade, ?_, ?_, ?_⟩
    · intro name hne
      rw [made.toLink_of_ne_new extension grownMade hne]
      exact ⟨rfl, fun _ => rfl⟩
    · intro hbare
      rw [if_neg hbare, List.length_map, List.length_map] at hkeys
      exact ⟨made.get?_of_bare extension grownMade hbare, hkeys,
        made.mem_leaves_of_bare extension grownMade hbare,
        fun _ hmem => made.depth_of_extension extension grownMade hmem,
        made.sortedRuns_of_bare extension grownMade hbare⟩
    · intro hnew
      rw [if_pos hnew, List.length_cons, List.length_map, List.length_map] at hkeys
      obtain ⟨entry, hget⟩ :=
        Option.isSome_iff_exists.mp ((grownMade.contains_new_iff extension).mpr hnew)
      exact ⟨hkeys, made.mem_leaves_of_new extension grownMade hnew, entry, hget,
        grownMade.parent_new extension hget,
        fun _ hchain => made.toLink_new extension grownMade hget hchain,
        made.toLink_new_alone extension grownMade hget⟩

-- The two arms, with a gripper where the left arm ended.
def gripping : Robot Float where
  links := Chain.twoArms.links ++ [⟨"gripper", none⟩]
  joints := Chain.twoArms.joints ++ [⟨"jaw", .prismatic, .here, "left", "gripper", none⟩]

def grippingInertial : Presence :=
  ⟨"gripper" :: Chain.twoArmsInertial.inertial, []⟩

theorem ofPairs_extension_gripping :
    Chain.twoArms.Extension gripping Chain.twoArmsInertial grippingInertial ⟨"gripper", none⟩
        ⟨"jaw", .prismatic, .here, "left", "gripper", none⟩ ∧
      Chain.twoArms.pairs.reverse.Perm Chain.twoArms.pairs ∧
      gripping.pairs.reverse.Perm gripping.pairs ∧ ∃ registry grown,
        (ofPairs Chain.twoArms Chain.twoArmsInertial Chain.twoArms.pairs.reverse).2 = .ok registry ∧
        (ofPairs gripping grippingInertial gripping.pairs.reverse).2 = .ok grown ∧
        registry.leaves = ["right", "left", "hand"] ∧ "gripper" ∈ grown.leaves ∧
        "left" ∉ grown.leaves ∧ ∃ chain segment, Chain.toLink registry "left" = .ok chain ∧
          Chain.toLink grown "gripper" = .ok ⟨chain.members ++ [("gripper", segment)]⟩ := by
  have extension : Chain.twoArms.Extension gripping Chain.twoArmsInertial grippingInertial
      ⟨"gripper", none⟩ ⟨"jaw", .prismatic, .here, "left", "gripper", none⟩ := {
    links := List.perm_append_singleton _ _
    joints := List.perm_append_singleton _ _
    fresh := by
      unfold Robot.Declares
      decide
    child := rfl
    parent := ⟨_, List.mem_cons_of_mem _ List.mem_cons_self, rfl⟩
    inertial := by
      rintro name ⟨link, hm, rfl⟩
      have hne : ∀ link ∈ Chain.twoArms.links, link.name ≠ "gripper" := by decide
      simp [grippingInertial, hne link hm]
    axis := fun _ _ => .rfl }
  have hpairs : Chain.twoArms.pairs.reverse.Perm Chain.twoArms.pairs := List.reverse_perm _
  have hextended : gripping.pairs.reverse.Perm gripping.pairs := List.reverse_perm _
  have hleaves : (ofPairs Chain.twoArms Chain.twoArmsInertial Chain.twoArms.pairs.reverse).2.map
      leaves = .ok ["right", "left", "hand"] := by rfl
  have hok : (ofPairs gripping grippingInertial gripping.pairs.reverse).2.isOk = true := by rfl
  cases h : (ofPairs Chain.twoArms Chain.twoArmsInertial Chain.twoArms.pairs.reverse).2 with
  | error failure => simp [h, Except.map] at hleaves
  | ok registry =>
      simp only [h, Except.map, Except.ok.injEq] at hleaves
      rcases ofPairs_extension _ _ _ _ _ _ extension _ _ hpairs hextended registry h with
        ⟨he, -⟩ | ⟨grown, hgrown, -, -, -, -, hnew⟩
      · simp [he, Except.isOk, Except.toBool] at hok
      · obtain ⟨-, hleaf, entry, -, -, hchain, -⟩ := hnew List.mem_cons_self
        have made := made_of_ofPairs hpairs h
        have hleft : registry.contains "left" = true :=
          (made.mem_leaves_iff.mp (by simp [hleaves])).1
        obtain ⟨chain, hupper⟩ := Chain.exists_toLink made hleft
        exact ⟨extension, hpairs, hextended, registry, grown, rfl, hgrown, hleaves,
          (hleaf _).mpr (.inl rfl), fun hm => ((hleaf _).mp hm).elim (by decide) (fun h => h.2 rfl),
          chain, entry.segment, hupper, hchain chain hupper⟩

end Linkage.Registry
