import Linkage.Proofs.Description.Depth
import Linkage.Proofs.Registry.Representation

namespace Linkage

open Body Description Lineage

namespace Description.Robot

variable {α : Type}

-- The links of a robot and its joints are nothing or one tree.
structure Sound (robot : Robot α) : Prop where
  distinct : (robot.links.map Link.name).Nodup
  single : (robot.joints.map Joint.child).Nodup
  attached : ¬robot.Dangles
  acyclic : ∀ link, ¬robot.Ancestor link link
  rooted : robot.roots.length ≤ 1

variable {robot other : Robot α} {presence otherPresence : Presence} {link : Link α}

theorem parentOf_congr (habove : robot.jointAbove? link.name = other.jointAbove? link.name) :
    robot.parentOf link = other.parentOf link := by
  rw [parentOf, parentOf, habove]

variable [Scalar α]

-- Of all that is written of axes, only the one of the joint above counts for a link.
theorem segment?_congr (habove : robot.jointAbove? link.name = other.jointAbove? link.name)
    (haxis : ∀ joint, robot.jointAbove? link.name = some joint →
      (joint.name ∈ presence.axis ↔ joint.name ∈ otherPresence.axis)) :
    robot.segment? presence link = other.segment? otherPresence link := by
  have hattachment : robot.attachment presence link = other.attachment otherPresence link := by
    rw [attachment, attachment, ← habove]
    cases hjoint : robot.jointAbove? link.name with
    | none => rfl
    | some joint =>
        have hcontains : presence.axis.contains joint.name = otherPresence.axis.contains joint.name := by
          rw [Bool.eq_iff_iff, List.contains_iff_mem, List.contains_iff_mem, haxis joint hjoint]
        simp only [Joint.attachment, Joint.axisOr, hcontains]
  rw [segment?, segment?, hattachment]

end Description.Robot

namespace Registry

variable {α : Type} [Scalar α] {robot : Robot α} {presence : Presence}
  {pairs : List (String × String)} {registry : Registry α}

-- For a tree, all that can be wrong is an axis.
theorem ofPairs_of_sound (presence : Presence) (sound : robot.Sound) (hpairs : pairs.Perm robot.pairs) :
    ((ofPairs robot presence pairs).2 = .error .degenerateAxis ∧ Directionless robot presence) ∨
      ((∃ registry, (ofPairs robot presence pairs).2 = .ok registry) ∧
        ¬Directionless robot presence) := by
  have hchildren := Robot.forall_not_heldTwice_iff.mpr sound.single
  have hnames := Robot.forall_not_namedTwice_iff.mpr sound.distinct
  have hverdict : Verdict robot presence (ofPairs robot presence pairs).2 := ofPairs_verdict hpairs
  generalize (ofPairs robot presence pairs).2 = result at hverdict ⊢
  cases hverdict with
  | multipleParents hheld => exact (hchildren _ hheld).elim
  | duplicateLink _ hnamed => exact (hnames _ hnamed).elim
  | danglingChild _ _ hh hchild => exact (sound.attached (Robot.dangles_of_child hh hchild)).elim
  | danglingParent _ _ hh _ hparent =>
      exact (sound.attached (Robot.dangles_of_parent hh hparent)).elim
  | cycle _ _ _ hcycle => exact (sound.acyclic _ hcycle).elim
  | multipleRoots _ _ _ _ hmany => exact (Nat.not_le_of_lt hmany sound.rooted).elim
  | degenerateAxis _ _ _ _ _ hbad => exact .inl ⟨rfl, hbad⟩
  | @registered registry _ _ _ _ _ hgood => exact .inr ⟨⟨registry, rfl⟩, hgood⟩

theorem Made.sound (made : Made robot presence pairs registry) : robot.Sound := by
  obtain ⟨levels, horder, -⟩ := made.levels_eq
  have hsingle := Robot.kinship_singleParents made.perm made.single
  have hverdict := Kinship.order_verdict made.distinct hsingle
  rw [horder] at hverdict
  obtain ⟨hdeclared, hacyclic, hone⟩ := hverdict.sound
  exact {
    distinct := made.distinct
    single := made.single
    attached := (Robot.kinship_declared_iff made.perm).mp hdeclared
    acyclic := Robot.kinship_ancestor made.perm ▸ hacyclic
    rooted := Robot.kinship_roots made.perm ▸ hone }

theorem exists_ofPairs_iff (hpairs : pairs.Perm robot.pairs) :
    (∃ registry, (ofPairs robot presence pairs).2 = .ok registry) ↔
      robot.Sound ∧ ¬Directionless robot presence := by
  constructor
  · rintro ⟨registry, h⟩
    have made := made_of_ofPairs hpairs h
    exact ⟨made.sound, made.directed⟩
  · rintro ⟨sound, hgood⟩
    rcases ofPairs_of_sound presence sound hpairs with ⟨-, hbad⟩ | ⟨hok, -⟩
    · exact (hgood hbad).elim
    · exact hok

namespace Made

theorem get?_iff (made : Made robot presence pairs registry) {name : String} {entry : Entry α} :
    registry.get? name = some entry ↔ ∃ link ∈ robot.links, link.name = name ∧
      name ∈ presence.inertial ∧ robot.segment? presence link = some entry.segment ∧
        robot.parentOf link = entry.parent := by
  simp only [made.get?_eq_some_iff, made.entries_eq, List.mem_filterMap, mem_entryOf_iff]

theorem size_eq (made : Made robot presence pairs registry) :
    registry.size = registry.order.length := by
  simpa [size] using made.keys_perm_order.length_eq

-- Two registries of the same links list them in the same order up to a permutation.
theorem order_perm {otherRobot : Robot α} {otherPresence : Presence}
    {otherPairs : List (String × String)} {other : Registry α}
    (made : Made robot presence pairs registry)
    (otherMade : Made otherRobot otherPresence otherPairs other)
    (hcontains : ∀ name, other.contains name = registry.contains name) :
    other.order.Perm registry.order := by
  rw [List.perm_ext_iff_of_nodup otherMade.order_nodup made.order_nodup]
  intro name
  rw [made.mem_order, otherMade.mem_order, hcontains]

theorem below_depth (made : Made robot presence pairs registry) {root name : String}
    (hroot : robot.roots = [root]) (hmem : registry.contains name = true) :
    robot.Below root (robot.depth name) name := by
  have tree := made.roots_eq_iff.mp hroot
  obtain ⟨n, hb, -⟩ := made.existsUnique_depth hroot hmem
  rw [← Robot.kinship_below made.perm] at hb ⊢
  rwa [Robot.depth_of_below made.perm tree hb]

theorem order_depth (made : Made robot presence pairs registry) :
    registry.order.Pairwise (robot.depth · ≤ robot.depth ·) := by
  rcases made.links_or_tree with ⟨-, he⟩ | ⟨root, tree, -⟩
  · simp [he]
  · have hroot := made.roots_eq_iff.mpr tree
    refine (made.order_pairwise hroot).imp_of_mem ?_
    intro first second hfirst hsecond hle
    exact hle _ _ (made.below_depth hroot (made.mem_order.mp hfirst))
      (made.below_depth hroot (made.mem_order.mp hsecond))

end Made

end Registry

end Linkage
