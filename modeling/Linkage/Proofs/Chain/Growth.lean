import Linkage.Proofs.Chain.Assembly

namespace Linkage

open Body Description Lineage

namespace Chain

variable {α : Type} {registry : Registry α}

-- How the chain to a link grows: from a link that nothing with an entry holds, by one link at a time
-- that the last one holds.
inductive Grown (registry : Registry α) : String → List (String × Segment α) → Prop where
  | base {name : String} {entry : Entry α} : registry.get? name = some entry →
      (∀ parent, entry.parent = some parent → registry.contains parent = false) →
        Grown registry name [(name, entry.segment)]
  | next {parent name : String} {entry : Entry α} {upper : List (String × Segment α)} :
      Grown registry parent upper → registry.get? name = some entry → entry.parent = some parent →
        Grown registry name (upper ++ [(name, entry.segment)])

namespace Grown

variable {name other : String} {members : List (String × Segment α)}

theorem contains (h : Grown registry name members) : registry.contains name = true := by
  cases h with
  | base hget _ => exact Option.isSome_iff_exists.mpr ⟨_, hget⟩
  | next _ hget _ => exact Option.isSome_iff_exists.mpr ⟨_, hget⟩

theorem exists_concat (h : Grown registry name members) :
    ∃ upper segment, members = upper ++ [(name, segment)] := by
  cases h with
  | base _ _ => exact ⟨[], _, rfl⟩
  | next _ _ _ => exact ⟨_, _, rfl⟩

theorem mem_names (h : Grown registry name members) : name ∈ members.map Prod.fst := by
  obtain ⟨upper, segment, rfl⟩ := h.exists_concat
  simp

-- Whether a chain ends above is for the entry of the link to say, so that there is one chain only.
theorem unique {others : List (String × Segment α)} (h : Grown registry name members)
    (hother : Grown registry name others) : members = others := by
  induction h generalizing others with
  | base hget hnone =>
      cases hother with
      | base hget' _ =>
          cases hget.symm.trans hget'
          rfl
      | next hupper hget' hparent =>
          cases hget.symm.trans hget'
          simpa [hnone _ hparent] using hupper.contains
  | next hupper hget hparent ih =>
      cases hother with
      | base hget' hnone =>
          cases hget.symm.trans hget'
          simpa [hnone _ hparent] using hupper.contains
      | next hupper' hget' hparent' =>
          cases hget.symm.trans hget'
          cases hparent.symm.trans hparent'
          rw [ih hupper']

-- A chain runs through the chains to its links.
theorem exists_upper (h : Grown registry name members) (hm : other ∈ members.map Prod.fst) :
    ∃ upper, Grown registry other upper ∧ upper <+: members := by
  induction h with
  | base hget hnone =>
      cases List.mem_singleton.mp hm
      exact ⟨_, .base hget hnone, List.prefix_rfl⟩
  | next hupper hget hparent ih =>
      rw [List.map_append, List.mem_append] at hm
      rcases hm with hm | hm
      · obtain ⟨above, habove, hstart⟩ := ih hm
        exact ⟨above, habove, hstart.trans (List.prefix_append _ _)⟩
      · cases List.mem_singleton.mp hm
        exact ⟨_, .next hupper hget hparent, List.prefix_rfl⟩

-- What a chain goes on from holds the link after it.
theorem exists_child (h : Grown registry name members) (hm : other ∈ (members.map Prod.fst).dropLast) :
    ∃ child entry, registry.get? child = some entry ∧ entry.parent = some other := by
  induction h with
  | base _ _ => simp at hm
  | @next parent name entry upper hupper hget hparent ih =>
      rw [List.map_append, List.map_singleton, List.dropLast_concat] at hm
      obtain ⟨above, segment, rfl⟩ := hupper.exists_concat
      rw [List.map_append, List.map_singleton] at hm ih
      rw [List.dropLast_concat] at ih
      rcases List.mem_append.mp hm with hm | hm
      · exact ih hm
      · cases List.mem_singleton.mp hm
        exact ⟨name, entry, hget, hparent⟩

end Grown

variable [Scalar α] {robot : Robot α} {presence : Presence} {pairs : List (String × String)}
  {root name : String} {way : List String} {chain : Chain α}

theorem grown_of_route (made : Registry.Made robot presence pairs registry)
    (tree : (robot.kinship pairs).Tree root) (hroute : Route (robot.kinship pairs).Holds root way name)
    (hmem : registry.contains name = true) :
    Grown registry name (registry.members (way.rtakeWhile registry.contains)) := by
  have hholds := Robot.kinship_holds made.perm
  induction hroute with
  | here =>
      obtain ⟨entry, hget⟩ := Option.isSome_iff_exists.mp hmem
      have hparent : entry.parent = none :=
        (made.parent_eq_none_iff hget).mpr (made.roots_eq_iff.mpr tree)
      have hmembers : registry.members ([root].rtakeWhile registry.contains) =
          [(root, entry.segment)] := by
        simp [List.rtakeWhile, hmem, Registry.members, hget]
      rw [hmembers]
      exact .base hget (by simp [hparent])
  | @step way parent child hroute hh ih =>
      obtain ⟨entry, hget⟩ := Option.isSome_iff_exists.mp hmem
      have hparent : entry.parent = some parent :=
        (made.parent_eq_some_iff hget).mpr (hholds ▸ hh)
      rw [List.rtakeWhile_concat_pos _ _ _ hmem, Registry.members_concat hget]
      cases habove : registry.contains parent with
      | true => exact .next (ih habove) hget hparent
      | false =>
          rw [hroute.rtakeWhile_eq_nil habove]
          exact .base hget (by simp [hparent, habove])

theorem exists_toLink (made : Registry.Made robot presence pairs registry)
    (hmem : registry.contains name = true) : ∃ chain, toLink registry name = .ok chain := by
  obtain ⟨root, way, tree, hroute⟩ := made.exists_route hmem
  exact ⟨_, toLink_eq made tree hroute hmem⟩

-- Walking up from a link meets the links from which its chain grows.
theorem toLink_eq_ok_iff (made : Registry.Made robot presence pairs registry) :
    toLink registry name = .ok chain ↔ Grown registry name chain.members := by
  constructor
  · intro h
    have hmem := contains_of_toLink h
    obtain ⟨root, way, tree, hroute⟩ := made.exists_route hmem
    cases h.symm.trans (toLink_eq made tree hroute hmem)
    exact grown_of_route made tree hroute hmem
  · intro h
    obtain ⟨root, way, tree, hroute⟩ := made.exists_route h.contains
    rw [toLink_eq made tree hroute h.contains, (grown_of_route made tree hroute h.contains).unique h]

-- No chain is longer than there are entries.
theorem Grown.length_le {members : List (String × Segment α)}
    (made : Registry.Made robot presence pairs registry) (h : Grown registry name members) :
    members.length ≤ registry.size := by
  obtain ⟨root, way, tree, hroute⟩ := made.exists_route h.contains
  rw [h.unique (grown_of_route made tree hroute h.contains)]
  exact (assembled made tree hroute h.contains).length_le

end Chain

end Linkage
