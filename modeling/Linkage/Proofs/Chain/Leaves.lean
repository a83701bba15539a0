import Linkage.Proofs.Chain.Growth

namespace Linkage

open Body Description

variable {α : Type} [Scalar α] {robot : Robot α} {presence : Presence}
  {pairs : List (String × String)} {registry : Registry α} {name : String}

namespace Registry.Made

theorem mem_leaves_iff (made : Made robot presence pairs registry) :
    name ∈ registry.leaves ↔ registry.contains name = true ∧
      ∀ child entry, registry.get? child = some entry → entry.parent ≠ some name := by
  simp [leaves, made.mem_order, made.get?_eq_some_iff]

theorem exists_child_of_not_leaf (made : Made robot presence pairs registry)
    (hmem : registry.contains name = true) (hleaf : name ∉ registry.leaves) :
    ∃ child entry, registry.get? child = some entry ∧ entry.parent = some name := by
  simpa [made.mem_leaves_iff, hmem] using hleaf

theorem leaves_nodup (made : Made robot presence pairs registry) : registry.leaves.Nodup :=
  made.order_nodup.filter _

end Registry.Made

namespace Chain

-- Going down from the tip of a chain ends at a leaf, for each link makes the chain longer.
theorem Grown.exists_leaf {name : String} {members : List (String × Segment α)}
    (made : Registry.Made robot presence pairs registry) (h : Grown registry name members) :
    ∃ leaf lower, leaf ∈ registry.leaves ∧ Grown registry leaf lower ∧ members <+: lower := by
  by_cases hleaf : name ∈ registry.leaves
  · exact ⟨name, members, hleaf, h, List.prefix_rfl⟩
  · obtain ⟨child, entry, hget, hparent⟩ := made.exists_child_of_not_leaf h.contains hleaf
    have hnext := h.next hget hparent
    have hlength := hnext.length_le made
    obtain ⟨leaf, lower, hbelow, hlower, hstart⟩ := hnext.exists_leaf made
    exact ⟨leaf, lower, hbelow, hlower, (List.prefix_append _ _).trans hstart⟩
termination_by registry.size - members.length
decreasing_by
  rw [List.length_append, List.length_singleton] at hlength ⊢
  omega

-- A leaf ends every chain that it is part of.
theorem mem_leaves_iff_not_mem_dropLast (made : Registry.Made robot presence pairs registry)
    (hmem : registry.contains name = true) :
    name ∈ registry.leaves ↔ ∀ tip chain, registry.contains tip = true →
      toLink registry tip = .ok chain → name ∉ chain.names.dropLast := by
  constructor
  · intro hleaf tip chain _ hchain hm
    obtain ⟨child, entry, hget, hparent⟩ :=
      ((toLink_eq_ok_iff made).mp hchain).exists_child hm
    exact (made.mem_leaves_iff.mp hleaf).2 child entry hget hparent
  · intro hlast
    by_contra hleaf
    obtain ⟨child, entry, hget, hparent⟩ := made.exists_child_of_not_leaf hmem hleaf
    obtain ⟨upper, hupper⟩ := exists_toLink made hmem
    have hgrown := (toLink_eq_ok_iff made).mp hupper
    have hnext := hgrown.next hget hparent
    apply hlast child ⟨_⟩ hnext.contains ((toLink_eq_ok_iff made).mpr hnext)
    rw [names, List.map_append, List.map_singleton, List.dropLast_concat]
    exact hgrown.mem_names

theorem exists_leaf_chain (made : Registry.Made robot presence pairs registry)
    (hmem : registry.contains name = true) :
    ∃ leaf ∈ registry.leaves, ∃ chain, toLink registry leaf = .ok chain ∧ name ∈ chain.names := by
  obtain ⟨upper, hupper⟩ := exists_toLink made hmem
  have hgrown := (toLink_eq_ok_iff made).mp hupper
  obtain ⟨leaf, lower, hleaf, hlower, hstart⟩ := hgrown.exists_leaf made
  have hm := (hstart.map Prod.fst).subset hgrown.mem_names
  exact ⟨leaf, hleaf, ⟨lower⟩, (toLink_eq_ok_iff made).mpr hlower, hm⟩

theorem contains_of_mem_names {tip : String} {chain : Chain α}
    (made : Registry.Made robot presence pairs registry) (h : toLink registry tip = .ok chain)
    (hm : name ∈ chain.names) : registry.contains name = true := by
  obtain ⟨upper, hupper, -⟩ := ((toLink_eq_ok_iff made).mp h).exists_upper hm
  exact hupper.contains

theorem leaves_eq_nil_iff (made : Registry.Made robot presence pairs registry) :
    registry.leaves = [] ↔ registry.isEmpty = true := by
  rw [Registry.isEmpty, List.isEmpty_iff]
  constructor
  · intro hleaves
    rw [List.eq_nil_iff_forall_not_mem]
    rintro ⟨name, entry⟩ hm
    have hmem := Option.isSome_iff_exists.mpr ⟨entry, made.get?_eq_some_iff.mpr hm⟩
    obtain ⟨leaf, hleaf, -⟩ := exists_leaf_chain made hmem
    simp [hleaves] at hleaf
  · intro hentries
    rw [List.eq_nil_iff_forall_not_mem]
    intro leaf hleaf
    have hmem := (made.mem_leaves_iff.mp hleaf).1
    simp [Registry.contains, Registry.get?, hentries] at hmem

-- The chains to the leaves go over all that has an entry, and over nothing else, wherever links
-- without one lie.
theorem toLink_leaves (robot : Robot α) (presence : Presence) (pairs : List (String × String))
    (hpairs : pairs.Perm robot.pairs) (registry : Registry α)
    (h : (Registry.ofPairs robot presence pairs).2 = .ok registry) :
    registry.leaves.Nodup ∧
    (registry.leaves = [] ↔ registry.isEmpty = true) ∧
    (∀ leaf ∈ registry.leaves, registry.contains leaf = true) ∧
    (∀ name, registry.contains name = true →
      (∃ chain, toLink registry name = .ok chain) ∧
      (name ∈ registry.leaves ↔ ∀ tip chain, registry.contains tip = true →
        toLink registry tip = .ok chain → name ∉ chain.names.dropLast)) ∧
    ∀ name, registry.contains name = true ↔
      ∃ leaf ∈ registry.leaves, ∃ chain, toLink registry leaf = .ok chain ∧ name ∈ chain.names := by
  have made := Registry.made_of_ofPairs hpairs h
  refine ⟨made.leaves_nodup, leaves_eq_nil_iff made, ?_, ?_, ?_⟩
  · intro leaf hleaf
    exact (made.mem_leaves_iff.mp hleaf).1
  · intro name hmem
    exact ⟨exists_toLink made hmem, mem_leaves_iff_not_mem_dropLast made hmem⟩
  · intro name
    constructor
    · exact exists_leaf_chain made
    · rintro ⟨leaf, -, chain, hchain, hm⟩
      exact contains_of_mem_names made hchain hm

-- Two arms on a torso. The base, the camera at the end of one arm and the wrist of the other have no
-- inertial data.
def twoArms : Robot Float where
  links := [⟨"hand", none⟩, ⟨"left", none⟩, ⟨"base", none⟩, ⟨"camera", none⟩, ⟨"torso", none⟩,
    ⟨"right", none⟩, ⟨"wrist", none⟩]
  joints := [⟨"grip", .prismatic, .here, "wrist", "hand", none⟩,
    ⟨"mount", .fixed, .here, "left", "camera", none⟩,
    ⟨"waist", .fixed, .here, "base", "torso", none⟩,
    ⟨"first", .prismatic, .here, "torso", "left", none⟩,
    ⟨"second", .prismatic, .here, "torso", "right", none⟩,
    ⟨"turn", .fixed, .here, "right", "wrist", none⟩]

def twoArmsInertial : Presence :=
  ⟨["hand", "left", "torso", "right"], []⟩

theorem toLink_leaves_twoArms :
    twoArms.pairs.reverse.Perm twoArms.pairs ∧ ∃ registry,
      (Registry.ofPairs twoArms twoArmsInertial twoArms.pairs.reverse).2 = .ok registry ∧
      registry.leaves = ["right", "left", "hand"] ∧
      ∃ leaf ∈ registry.leaves, ∃ chain,
        toLink registry leaf = .ok chain ∧ "torso" ∈ chain.names := by
  have hpairs : twoArms.pairs.reverse.Perm twoArms.pairs := List.reverse_perm _
  have hleaves : (Registry.ofPairs twoArms twoArmsInertial twoArms.pairs.reverse).2.map
      Registry.leaves = .ok ["right", "left", "hand"] := by rfl
  cases hregistry : (Registry.ofPairs twoArms twoArmsInertial twoArms.pairs.reverse).2 with
  | error failure => simp [hregistry, Except.map] at hleaves
  | ok registry =>
      simp only [hregistry, Except.map, Except.ok.injEq] at hleaves
      obtain ⟨-, -, -, -, hall⟩ :=
        toLink_leaves twoArms twoArmsInertial _ hpairs registry hregistry
      have htorso : registry.contains "torso" = true := by
        rw [(Registry.made_of_ofPairs hpairs hregistry).contains_iff]
        unfold Robot.Declares
        decide
      exact ⟨hpairs, registry, rfl, hleaves, (hall "torso").mp htorso⟩

end Chain

end Linkage
