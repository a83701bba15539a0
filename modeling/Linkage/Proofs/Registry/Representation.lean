import Linkage.Proofs.Registry.Outcome

namespace Linkage.Registry

open Description Lineage

variable {α : Type} [Scalar α]

-- What a registry that was made of a robot consists of: what is entered for its links, and the
-- levels of its links less those that have no entry.
structure Made (robot : Robot α) (presence : Presence) (pairs : List (String × String))
    (registry : Registry α) : Prop where
  perm : pairs.Perm robot.pairs
  distinct : (robot.links.map Link.name).Nodup
  single : (robot.joints.map Joint.child).Nodup
  directed : ¬Directionless robot presence
  entries_eq : registry.entries = robot.links.filterMap (entryOf robot presence)
  levels_eq : ∃ levels, (robot.kinship pairs).order = .ok levels ∧
    registry.levels = levels.map (·.filter ((registry.entries.map Prod.fst).contains ·))

variable {robot : Robot α} {presence : Presence} {pairs : List (String × String)}
  {registry : Registry α}

theorem made_of_ofPairs (hpairs : pairs.Perm robot.pairs)
    (h : (ofPairs robot presence pairs).2 = .ok registry) : Made robot presence pairs registry := by
  rcases robot.order_cases pairs with ⟨link, he, -⟩ | ⟨name, he, -⟩ | ⟨he, hchildren, hnames⟩
  · simp [ofPairs_of_order_error he] at h
  · simp [ofPairs_of_order_error he] at h
  · cases horder : (robot.kinship pairs).order with
    | error failure => simp [ofPairs_of_order_error (he.trans horder)] at h
    | ok levels =>
        rw [ofPairs_of_order_ok (he.trans horder)] at h
        rcases enroll_links_cases robot presence with ⟨hbad, -⟩ | ⟨hgood, hdirected⟩
        · simp [hbad, Except.map] at h
        · rw [hgood] at h
          cases h
          exact ⟨hpairs, Robot.forall_not_namedTwice_iff.mp hnames,
            Robot.forall_not_heldTwice_iff.mp hchildren, hdirected, rfl, levels, horder, rfl⟩

theorem made_of_ofRobot {order : Arrangement} (h : (ofRobot order robot presence).2 = .ok registry) :
    Made robot presence (order.arrange robot.pairs) registry :=
  made_of_ofPairs (order.perm robot.pairs) h

theorem mem_entryOf_iff {link : Link α} {name : String} {entry : Entry α} :
    entryOf robot presence link = some (name, entry) ↔
      link.name = name ∧ name ∈ presence.inertial ∧
        robot.segment? presence link = some entry.segment ∧ robot.parentOf link = entry.parent := by
  obtain ⟨segment, parent⟩ := entry
  by_cases hm : link.name ∈ presence.inertial
  · simp only [entryOf, List.contains_eq_mem, hm, decide_true, if_true, Option.map_eq_some_iff,
      Prod.mk.injEq, Entry.mk.injEq]
    constructor
    · rintro ⟨s, hs, rfl, rfl, rfl⟩
      exact ⟨rfl, hm, hs, rfl⟩
    · rintro ⟨rfl, -, hs, rfl⟩
      exact ⟨segment, hs, rfl, rfl, rfl⟩
  · simp only [entryOf, List.contains_eq_mem, hm, decide_false, Bool.false_eq_true, if_false,
      reduceCtorEq, false_iff, not_and]
    rintro rfl hinertial
    exact absurd hinertial hm

theorem map_fst_filterMap_entryOf (links : List (Link α))
    (hdirected : ∀ link ∈ links, link.name ∈ presence.inertial →
      robot.segment? presence link ≠ none) :
    (links.filterMap (entryOf robot presence)).map Prod.fst =
      (links.map Link.name).filter (presence.inertial.contains ·) := by
  induction links with
  | nil => rfl
  | cons link rest ih =>
      have hrest := ih fun other ho => hdirected other (List.mem_cons_of_mem _ ho)
      by_cases hm : link.name ∈ presence.inertial
      · obtain ⟨segment, hs⟩ := Option.ne_none_iff_exists'.mp
          (hdirected link List.mem_cons_self hm)
        simp [entryOf, hm, hs, hrest]
      · simp [entryOf, hm, hrest]

omit [Scalar α] in
theorem contains_iff_mem_keys (name : String) :
    registry.contains name = true ↔ name ∈ registry.entries.map Prod.fst := by
  simp only [contains, get?, List.lookup_isSome_iff, List.mem_map, beq_iff_eq]
  constructor
  · rintro ⟨entry, hm, rfl⟩
    exact ⟨entry, hm, rfl⟩
  · rintro ⟨entry, hm, rfl⟩
    exact ⟨entry, hm, rfl⟩

omit [Scalar α] in
theorem mem_ordered {name : String} {entry : Entry α} :
    (name, entry) ∈ registry.ordered ↔ name ∈ registry.order ∧ registry.get? name = some entry := by
  simp only [ordered, List.mem_filterMap, Option.map_eq_some_iff, Prod.mk.injEq]
  constructor
  · rintro ⟨_, hm, _, hget, rfl, rfl⟩
    exact ⟨hm, hget⟩
  · rintro ⟨hm, hget⟩
    exact ⟨name, hm, entry, hget, rfl, rfl⟩

namespace Made

theorem keys_eq (made : Made robot presence pairs registry) :
    registry.entries.map Prod.fst =
      (robot.links.map Link.name).filter (presence.inertial.contains ·) := by
  rw [made.entries_eq]
  apply map_fst_filterMap_entryOf
  intro link hm hinertial hnone
  exact made.directed ⟨link, hm, hinertial, hnone⟩

theorem keys_nodup (made : Made robot presence pairs registry) :
    (registry.entries.map Prod.fst).Nodup := by
  rw [made.keys_eq]
  exact made.distinct.filter _

theorem get?_eq_some_iff (made : Made robot presence pairs registry) {name : String}
    {entry : Entry α} : registry.get? name = some entry ↔ (name, entry) ∈ registry.entries :=
  lookup_eq_some_iff_mem made.keys_nodup

theorem contains_iff (made : Made robot presence pairs registry) {name : String} :
    registry.contains name = true ↔ robot.Declares name ∧ name ∈ presence.inertial := by
  rw [contains_iff_mem_keys, made.keys_eq, List.mem_filter, List.contains_iff_mem, List.mem_map,
    Robot.Declares]

theorem exists_link (made : Made robot presence pairs registry) {name : String} {entry : Entry α}
    (h : registry.get? name = some entry) :
    ∃ link ∈ robot.links, link.name = name ∧ robot.segment? presence link = some entry.segment ∧
      robot.parentOf link = entry.parent := by
  rw [made.get?_eq_some_iff, made.entries_eq, List.mem_filterMap] at h
  obtain ⟨link, hm, he⟩ := h
  obtain ⟨hname, -, hs, hp⟩ := mem_entryOf_iff.mp he
  exact ⟨link, hm, hname, hs, hp⟩

theorem order_eq (made : Made robot presence pairs registry) :
    ∃ levels, (robot.kinship pairs).order = .ok levels ∧
      registry.order = levels.flatten.filter (registry.contains ·) := by
  obtain ⟨levels, horder, he⟩ := made.levels_eq
  refine ⟨levels, horder, ?_⟩
  rw [order, he, ← List.filter_flatten]
  apply List.filter_congr
  intro name _
  rw [Bool.eq_iff_iff, List.contains_iff_mem, contains_iff_mem_keys]

-- The links of an accepted robot are nothing or a tree.
theorem links_or_tree (made : Made robot presence pairs registry) :
    (robot.links = [] ∧ registry.order = []) ∨
    ∃ root, (robot.kinship pairs).Tree root ∧
      registry.order = ((robot.kinship pairs).levels root).flatten.filter (registry.contains ·) := by
  obtain ⟨levels, horder, he⟩ := made.order_eq
  have hsingle := Robot.kinship_singleParents made.perm made.single
  rcases Kinship.order_eq_ok_cases made.distinct hsingle horder with ⟨hl, -, rfl⟩ | ⟨root, tree, rfl⟩
  · exact .inl ⟨List.map_eq_nil_iff.mp hl, by simpa using he⟩
  · exact .inr ⟨root, tree, he⟩

theorem mem_order (made : Made robot presence pairs registry) {name : String} :
    name ∈ registry.order ↔ registry.contains name = true := by
  rcases made.links_or_tree with ⟨hl, he⟩ | ⟨root, tree, he⟩
  · simp [he, made.contains_iff, Robot.Declares, hl]
  · rw [he, List.mem_filter, tree.mem_levels, Robot.mem_kinship_links]
    exact ⟨And.right, fun h => ⟨(made.contains_iff.mp h).1, h⟩⟩

theorem order_nodup (made : Made robot presence pairs registry) : registry.order.Nodup := by
  rcases made.links_or_tree with ⟨-, he⟩ | ⟨root, tree, he⟩
  · simp [he]
  · rw [he]
    exact tree.levels_nodup.filter _

theorem keys_perm_order (made : Made robot presence pairs registry) :
    (registry.entries.map Prod.fst).Perm registry.order := by
  rw [List.perm_ext_iff_of_nodup made.keys_nodup made.order_nodup]
  intro name
  rw [made.mem_order, contains_iff_mem_keys]

-- Looking up what the order lists never fails.
theorem map_fst_ordered (made : Made robot presence pairs registry) :
    registry.ordered.map Prod.fst = registry.order := by
  have hall : ∀ name ∈ registry.order, (registry.get? name).isSome := by
    intro name hm
    exact made.mem_order.mp hm
  rw [ordered]
  generalize registry.order = names at hall
  induction names with
  | nil => rfl
  | cons name rest ih =>
      obtain ⟨entry, he⟩ := Option.isSome_iff_exists.mp (hall name List.mem_cons_self)
      have hrest := ih fun other ho => hall other (List.mem_cons_of_mem _ ho)
      simp [he, hrest]

theorem parent_eq_some_iff (made : Made robot presence pairs registry) {name parent : String}
    {entry : Entry α} (h : registry.get? name = some entry) :
    entry.parent = some parent ↔ robot.Holds parent name := by
  obtain ⟨link, -, rfl, -, hp⟩ := made.exists_link h
  rw [← hp, Robot.parentOf_eq_some_iff made.single]

theorem roots_eq_iff (made : Made robot presence pairs registry) {name : String} :
    robot.roots = [name] ↔ (robot.kinship pairs).Tree name := by
  constructor
  · intro hroots
    have hm : name ∈ robot.roots := by simp [hroots]
    rcases made.links_or_tree with ⟨hl, -⟩ | ⟨root, tree, -⟩
    · simp [Robot.roots, hl] at hm
    · have he := Robot.kinship_roots made.perm ▸ tree.roots_eq
      cases hroots.symm.trans he
      exact tree
  · intro tree
    exact Robot.kinship_roots made.perm ▸ tree.roots_eq

-- The one link without a parent is the root.
theorem parent_eq_none_iff (made : Made robot presence pairs registry) {name : String}
    {entry : Entry α} (h : registry.get? name = some entry) :
    entry.parent = none ↔ robot.roots = [name] := by
  obtain ⟨link, hm, rfl, -, hp⟩ := made.exists_link h
  rw [← hp, Robot.parentOf_eq_none_iff, ← Robot.kinship_parentless_iff made.perm, made.roots_eq_iff]
  constructor
  · intro hparentless
    rcases made.links_or_tree with ⟨hl, -⟩ | ⟨root, tree, -⟩
    · simp [hl] at hm
    · have hl : link.name ∈ (robot.kinship pairs).links := Robot.mem_kinship_links.mpr ⟨link, hm, rfl⟩
      rw [tree.eq_root_of_parentless hl hparentless]
      exact tree
  · exact fun tree => tree.parentless

theorem order_ancestor (made : Made robot presence pairs registry) {above below : String}
    (habove : registry.contains above = true) (hbelow : registry.contains below = true)
    (h : robot.Ancestor above below) : [above, below].Sublist registry.order := by
  rcases made.links_or_tree with ⟨hl, -⟩ | ⟨root, tree, he⟩
  · have hd := (made.contains_iff.mp habove).1
    simp [Robot.Declares, hl] at hd
  · rw [← Robot.kinship_ancestor made.perm] at h
    have hsub := (tree.levels_ancestor h).filter (registry.contains ·)
    rwa [List.filter_cons_of_pos habove, List.filter_cons_of_pos hbelow, List.filter_nil, ← he] at hsub

theorem order_pairwise (made : Made robot presence pairs registry) {root : String}
    (hroot : robot.roots = [root]) : registry.order.Pairwise (robot.DepthLe root) := by
  have tree := made.roots_eq_iff.mp hroot
  rcases made.links_or_tree with ⟨-, he⟩ | ⟨other, htree, he⟩
  · simp [he]
  · cases tree.root_unique htree
    rw [he, ← Robot.kinship_depthLe made.perm]
    exact tree.levels_pairwise.filter _

theorem order_head (made : Made robot presence pairs registry) {root : String}
    (hroot : robot.roots = [root]) (hmem : registry.contains root = true) :
    registry.order.head? = some root := by
  have tree := made.roots_eq_iff.mp hroot
  rcases made.links_or_tree with ⟨hl, -⟩ | ⟨other, htree, he⟩
  · simp [Robot.roots, hl] at hroot
  · cases tree.root_unique htree
    obtain ⟨rest, hlevels⟩ := List.head?_eq_some_iff.mp tree.levels_head
    simp [he, hlevels, hmem]

theorem root?_eq_some_iff (made : Made robot presence pairs registry) {name : String} :
    registry.root? = some name ↔ robot.roots = [name] ∧ registry.contains name = true := by
  have hsound : ∀ name, registry.root? = some name →
      robot.roots = [name] ∧ registry.contains name = true := by
    intro name h
    obtain ⟨⟨found, entry⟩, hfind, rfl⟩ := Option.map_eq_some_iff.mp h
    have hparent : entry.parent = none := by simpa using List.find?_some hfind
    obtain ⟨hm, hget⟩ := mem_ordered.mp (List.mem_of_find?_eq_some hfind)
    exact ⟨(made.parent_eq_none_iff hget).mp hparent, made.mem_order.mp hm⟩
  refine ⟨hsound name, ?_⟩
  rintro ⟨hroot, hmem⟩
  obtain ⟨entry, hget⟩ := Option.isSome_iff_exists.mp hmem
  have hfound : registry.root?.isSome := by
    rw [root?, Option.isSome_map, List.find?_isSome]
    refine ⟨(name, entry), mem_ordered.mpr ⟨made.mem_order.mpr hmem, hget⟩, ?_⟩
    simp [(made.parent_eq_none_iff hget).mpr hroot]
  obtain ⟨found, hr⟩ := Option.isSome_iff_exists.mp hfound
  have he := (hsound found hr).1
  rw [hroot] at he
  cases he
  exact hr

theorem exists_root (made : Made robot presence pairs registry) (hlinks : robot.links ≠ []) :
    ∃ root, robot.roots = [root] := by
  rcases made.links_or_tree with ⟨hl, -⟩ | ⟨root, tree, -⟩
  · exact absurd hl hlinks
  · exact ⟨root, made.roots_eq_iff.mpr tree⟩

theorem existsUnique_depth (made : Made robot presence pairs registry) {root name : String}
    (hroot : robot.roots = [root]) (hmem : registry.contains name = true) :
    ∃! depth, robot.Below root depth name := by
  have tree := made.roots_eq_iff.mp hroot
  have hl : name ∈ (robot.kinship pairs).links :=
    Robot.mem_kinship_links.mpr (made.contains_iff.mp hmem).1
  obtain ⟨depth, hb⟩ := tree.reaches name hl
  rw [← Robot.kinship_below made.perm]
  exact ⟨depth, hb, fun _ hother => tree.depth_unique hother hb⟩

end Made

-- What a registry says of the robot it was made of. Depths are counted in the robot, so that links
-- without an entry count where they lie between others.
structure Represents (registry : Registry α) (robot : Robot α) (presence : Presence) : Prop where
  keys_nodup : (registry.entries.map Prod.fst).Nodup
  mem_keys_iff : ∀ name,
    name ∈ registry.entries.map Prod.fst ↔ robot.Declares name ∧ name ∈ presence.inertial
  order_nodup : registry.order.Nodup
  mem_order_iff : ∀ name, name ∈ registry.order ↔ name ∈ registry.entries.map Prod.fst
  ordered_names : registry.ordered.map Prod.fst = registry.order
  size_eq : registry.size = registry.order.length
  parent_eq_some_iff : ∀ name entry parent, registry.get? name = some entry →
    (entry.parent = some parent ↔ robot.Holds parent name)
  parent_eq_none_iff : ∀ name entry, registry.get? name = some entry →
    (entry.parent = none ↔ robot.roots = [name])
  order_ancestor : ∀ above below, registry.contains above = true → registry.contains below = true →
    robot.Ancestor above below → [above, below].Sublist registry.order
  exists_root : robot.links ≠ [] → ∃ root, robot.roots = [root]
  existsUnique_depth : ∀ root name, robot.roots = [root] → registry.contains name = true →
    ∃! depth, robot.Below root depth name
  order_depth : ∀ root, robot.roots = [root] → registry.order.Pairwise (robot.DepthLe root)
  parentless_unique : ∀ first second firstEntry secondEntry,
    registry.get? first = some firstEntry → registry.get? second = some secondEntry →
      firstEntry.parent = none → secondEntry.parent = none → first = second
  root?_eq_some_iff : ∀ name,
    registry.root? = some name ↔ robot.roots = [name] ∧ registry.contains name = true
  root?_first : ∀ name, registry.root? = some name → registry.order.head? = some name

theorem ofPairs_represents (robot : Robot α) (presence : Presence) (pairs : List (String × String))
    (hpairs : pairs.Perm robot.pairs) (registry : Registry α)
    (h : (ofPairs robot presence pairs).2 = .ok registry) : Represents registry robot presence := by
  have made := made_of_ofPairs hpairs h
  exact {
    keys_nodup := made.keys_nodup
    mem_keys_iff := fun name => by rw [← contains_iff_mem_keys, made.contains_iff]
    order_nodup := made.order_nodup
    mem_order_iff := fun name => by rw [made.mem_order, contains_iff_mem_keys]
    ordered_names := made.map_fst_ordered
    size_eq := by simpa [size] using made.keys_perm_order.length_eq
    parent_eq_some_iff := fun _ _ _ hget => made.parent_eq_some_iff hget
    parent_eq_none_iff := fun _ _ hget => made.parent_eq_none_iff hget
    order_ancestor := fun _ _ habove hbelow ha => made.order_ancestor habove hbelow ha
    exists_root := made.exists_root
    existsUnique_depth := fun _ _ hroot hmem => made.existsUnique_depth hroot hmem
    order_depth := fun _ hroot => made.order_pairwise hroot
    parentless_unique := by
      intro first second firstEntry secondEntry hfirst hsecond hf hs
      have he := ((made.parent_eq_none_iff hfirst).mp hf).symm.trans
        ((made.parent_eq_none_iff hsecond).mp hs)
      cases he
      rfl
    root?_eq_some_iff := fun _ => made.root?_eq_some_iff
    root?_first := by
      intro name hname
      obtain ⟨hroot, hmem⟩ := made.root?_eq_some_iff.mp hname
      exact made.order_head hroot hmem }

-- A gantry on a base without inertial data, and a tool that it holds by a plate without any.
def gantry : Robot Float where
  links := [⟨"base", none⟩, ⟨"tool", none⟩, ⟨"plate", none⟩, ⟨"gantry", none⟩]
  joints := [⟨"mount", .fixed, .here, "gantry", "plate", none⟩,
    ⟨"grip", .prismatic, .here, "plate", "tool", none⟩,
    ⟨"rail", .prismatic, .here, "base", "gantry", none⟩]

theorem ofPairs_gantry :
    gantry.pairs.reverse.Perm gantry.pairs ∧
      ∃ registry, (ofPairs gantry ⟨["tool", "gantry"], []⟩ gantry.pairs.reverse).2 = .ok registry ∧
        Represents registry gantry ⟨["tool", "gantry"], []⟩ ∧
          ["gantry", "tool"].Sublist registry.order := by
  have hpairs : gantry.pairs.reverse.Perm gantry.pairs := List.reverse_perm _
  have hok : (ofPairs gantry ⟨["tool", "gantry"], []⟩ gantry.pairs.reverse).2.isOk = true := by rfl
  have hancestor : gantry.Ancestor "gantry" "tool" :=
    .tail (.single ⟨_, List.mem_cons_self, rfl, rfl⟩)
      ⟨_, List.mem_cons_of_mem _ List.mem_cons_self, rfl, rfl⟩
  cases h : (ofPairs gantry ⟨["tool", "gantry"], []⟩ gantry.pairs.reverse).2 with
  | error failure => simp [h, Except.isOk, Except.toBool] at hok
  | ok registry =>
      have hrep := ofPairs_represents gantry ⟨["tool", "gantry"], []⟩ _ hpairs registry h
      have hcontains : ∀ name ∈ ["gantry", "tool"], registry.contains name = true := by
        intro name hm
        rw [contains_iff_mem_keys, hrep.mem_keys_iff]
        unfold Robot.Declares
        decide +revert
      exact ⟨hpairs, registry, rfl, hrep, hrep.order_ancestor _ _ (hcontains _ (by decide))
        (hcontains _ (by decide)) hancestor⟩

end Linkage.Registry
