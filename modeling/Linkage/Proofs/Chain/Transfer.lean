import Linkage.Proofs.Chain.Growth

namespace Linkage.Chain

open Body Description

variable {α : Type} {registry other : Registry α} {name : String}
  {members : List (String × Segment α)}

-- A chain stays the same in a registry that has the same of its links and nothing new above it.
theorem Grown.transfer
    (hget : ∀ name entry, registry.get? name = some entry → other.get? name = some entry)
    (habove : ∀ name entry parent, registry.get? name = some entry → entry.parent = some parent →
      registry.contains parent = false → other.contains parent = false)
    (h : Grown registry name members) : Grown other name members := by
  induction h with
  | base hentry hnone =>
      refine .base (hget _ _ hentry) ?_
      intro parent hparent
      exact habove _ _ parent hentry hparent (hnone parent hparent)
  | next _ hentry hparent ih => exact .next ih (hget _ _ hentry) hparent

theorem toLink_of_not_contains (hmem : registry.contains name = false) :
    toLink registry name = .error (.linkNotFound name) := by
  have hnone : registry.get? name = none := by simpa [Registry.contains] using hmem
  simp only [toLink, hnone]
  rfl

variable [Scalar α] {robot otherRobot : Robot α} {presence otherPresence : Presence}
  {pairs otherPairs : List (String × String)}

theorem toLink_eq_of_transfer (made : Registry.Made robot presence pairs registry)
    (otherMade : Registry.Made otherRobot otherPresence otherPairs other)
    (hmem : other.contains name = registry.contains name)
    (hgrown : ∀ members, Grown registry name members → Grown other name members) :
    toLink other name = toLink registry name := by
  cases hcontains : registry.contains name with
  | false =>
      rw [toLink_of_not_contains hcontains, toLink_of_not_contains (hmem.trans hcontains)]
  | true =>
      obtain ⟨chain, hchain⟩ := exists_toLink made hcontains
      rw [hchain, toLink_eq_ok_iff otherMade]
      exact hgrown _ ((toLink_eq_ok_iff made).mp hchain)

end Linkage.Chain
