import Linkage.Proofs.Lineage.Traversal

namespace Linkage.Lineage.Kinship

-- A way down, given by the pairs that are gone through.
def Path (k : Kinship) : String → List (String × String) → String → Prop
  | top, [], bottom => top = bottom
  | top, (child, parent) :: rest, bottom =>
      parent = top ∧ k.Holds parent child ∧ Path k child rest bottom

-- Every declared link is below the root, and nothing else is.
structure Tree (k : Kinship) (root : String) : Prop where
  distinct : k.links.Nodup
  single : k.SingleParents
  declared : k.Declared
  root_mem : root ∈ k.links
  parentless : k.Parentless root
  reaches : ∀ link ∈ k.links, ∃ n, k.Below root n link

variable {k : Kinship}

theorem Path.below {top bottom : String} {way : List (String × String)}
    (h : k.Path top way bottom) : k.Below top way.length bottom := by
  induction way generalizing top with
  | nil =>
      cases h
      exact .here
  | cons pair rest ih =>
      obtain ⟨rfl, hh, hrest⟩ := h
      exact Below.succ_iff.mpr ⟨_, hh, ih hrest⟩

theorem Path.append {top middle bottom : String} {upper lower : List (String × String)}
    (hupper : k.Path top upper middle) (hlower : k.Path middle lower bottom) :
    k.Path top (upper ++ lower) bottom := by
  induction upper generalizing top with
  | nil =>
      cases hupper
      exact hlower
  | cons pair rest ih =>
      obtain ⟨hp, hh, hrest⟩ := hupper
      exact ⟨hp, hh, ih hrest⟩

theorem Below.exists_path {top bottom : String} {n : Nat} (h : k.Below top n bottom) :
    ∃ way, k.Path top way bottom ∧ way.length = n := by
  induction h with
  | here => exact ⟨[], rfl, rfl⟩
  | @step _ parent child _ hh ih =>
      obtain ⟨way, hway, hlength⟩ := ih
      exact ⟨way ++ [(child, parent)], hway.append ⟨rfl, hh, rfl⟩, by simp [hlength]⟩

-- Going up there is no choice, so ways of one length with one end are the same.
theorem Path.eq_of_length (hsingle : k.SingleParents) {top bottom : String}
    {first second : List (String × String)} (hfirst : k.Path top first bottom)
    (hsecond : k.Path top second bottom) (hlength : first.length = second.length) :
    first = second := by
  induction first generalizing top second with
  | nil => exact (List.length_eq_zero_iff.mp hlength.symm).symm
  | cons pair rest ih =>
      cases second with
      | nil => simp at hlength
      | cons pair' rest' =>
          obtain ⟨child, parent⟩ := pair
          obtain ⟨child', parent'⟩ := pair'
          obtain ⟨rfl, -, hrest⟩ := hfirst
          obtain ⟨rfl, -, hrest'⟩ := hsecond
          have hlength' : rest.length = rest'.length := by simpa using hlength
          cases hrest.below.top_unique hsingle (hlength' ▸ hrest'.below)
          rw [ih hrest hrest' hlength']

-- Of two members of a list, the one that the other may not be before is the first.
theorem pair_sublist_of_pairwise {α : Type} {r : α → α → Prop} {list : List α}
    (h : list.Pairwise r) {first second : α} (hfirst : first ∈ list) (hsecond : second ∈ list)
    (hne : first ≠ second) (hnot : ¬r second first) : [first, second].Sublist list := by
  induction list with
  | nil => simp at hfirst
  | cons head rest ih =>
      obtain ⟨hhead, hrest⟩ := List.pairwise_cons.mp h
      rcases List.mem_cons.mp hfirst with rfl | hf
      · have hs := (List.mem_cons.mp hsecond).resolve_left (Ne.symm hne)
        exact (List.singleton_sublist.mpr hs).cons_cons first
      · rcases List.mem_cons.mp hsecond with rfl | hs
        · exact absurd (hhead first hf) hnot
        · exact (ih hrest hf hs).cons head

namespace Tree

variable {root : String}

theorem depth_unique (tree : k.Tree root) {link : String} {m n : Nat} (hm : k.Below root m link)
    (hn : k.Below root n link) : m = n :=
  hm.depth_unique tree.single tree.parentless hn

theorem mem_of_below (tree : k.Tree root) {link : String} {n : Nat} (h : k.Below root n link) :
    link ∈ k.links :=
  h.bottom_mem tree.declared tree.root_mem

theorem existsUnique_path (tree : k.Tree root) {link : String} (hmem : link ∈ k.links) :
    ∃! way, k.Path root way link := by
  obtain ⟨n, hb⟩ := tree.reaches link hmem
  obtain ⟨way, hway, -⟩ := hb.exists_path
  refine ⟨way, hway, ?_⟩
  intro other hother
  exact hother.eq_of_length tree.single hway (tree.depth_unique hother.below hway.below)

-- A second way down would lead through a parent of the root, and back to the root again.
theorem of_existsUnique_path (hdistinct : k.links.Nodup) (hsingle : k.SingleParents)
    (hdeclared : k.Declared) (hroot : root ∈ k.links)
    (hpath : ∀ link ∈ k.links, ∃! way, k.Path root way link) : k.Tree root where
  distinct := hdistinct
  single := hsingle
  declared := hdeclared
  root_mem := hroot
  parentless := by
    intro parent hh
    obtain ⟨way, hway, -⟩ := hpath parent (hdeclared _ _ hh).2
    have hloop : k.Path root (way ++ [(root, parent)]) root := hway.append ⟨rfl, hh, rfl⟩
    have he : way ++ [(root, parent)] = [] := (hpath root hroot).unique hloop rfl
    simp at he
  reaches := by
    intro link hm
    obtain ⟨way, hway, -⟩ := hpath link hm
    exact ⟨way.length, hway.below⟩

theorem acyclic (tree : k.Tree root) : k.Acyclic := by
  intro link hcycle
  obtain ⟨n, hloop⟩ := hcycle.exists_below
  obtain ⟨m, hb⟩ := tree.reaches link (hcycle.bottom_mem tree.declared)
  have he := tree.depth_unique hb (hb.trans hloop)
  omega

theorem eq_root_of_parentless (tree : k.Tree root) {link : String} (hmem : link ∈ k.links)
    (h : k.Parentless link) : link = root := by
  obtain ⟨n, hb⟩ := tree.reaches link hmem
  exact (hb.eq_zero_of_parentless h).2.symm

theorem roots_eq (tree : k.Tree root) : k.roots = [root] := by
  have hnodup : k.roots.Nodup := tree.distinct.filter _
  rw [← List.perm_singleton, List.perm_ext_iff_of_nodup hnodup (List.nodup_singleton root)]
  intro link
  rw [mem_roots, List.mem_singleton]
  constructor
  · rintro ⟨hm, hp⟩
    exact tree.eq_root_of_parentless hm hp
  · rintro rfl
    exact ⟨tree.root_mem, tree.parentless⟩

-- Each link but the root is the child of one pair.
theorem length_pairs (tree : k.Tree root) : k.pairs.length + 1 = k.links.length := by
  have hnodup : (root :: k.pairs.map Prod.fst).Nodup := by
    refine List.nodup_cons.mpr ⟨?_, tree.single⟩
    intro hm
    obtain ⟨⟨child, parent⟩, hp, rfl⟩ := List.mem_map.mp hm
    exact tree.parentless parent hp
  have hperm : (root :: k.pairs.map Prod.fst).Perm k.links := by
    rw [List.perm_ext_iff_of_nodup hnodup tree.distinct]
    intro link
    rw [List.mem_cons]
    constructor
    · rintro (rfl | hm)
      · exact tree.root_mem
      · obtain ⟨⟨child, parent⟩, hp, rfl⟩ := List.mem_map.mp hm
        exact (tree.declared parent child hp).1
    · intro hm
      by_cases hp : k.Parentless link
      · exact .inl (tree.eq_root_of_parentless hm hp)
      · simp only [Parentless, not_forall, not_not] at hp
        obtain ⟨parent, hh⟩ := hp
        exact .inr (List.mem_map.mpr ⟨(link, parent), hh, rfl⟩)
  simpa using hperm.length_eq

theorem below_root : ∀ link ∈ [root], k.Below root 0 link := by
  intro link hm
  rw [List.mem_singleton.mp hm]
  exact .here

theorem mem_generation (tree : k.Tree root) {depth : Nat} {link : String} :
    link ∈ (k.generations k.links.length [root])[depth]?.getD [] ↔ k.Below root depth link := by
  simp only [mem_generations_getElem?, List.mem_singleton, exists_eq_left, and_iff_right_iff_imp]
  exact fun hb => hb.depth_lt tree.single tree.declared tree.root_mem tree.parentless

theorem generations_perm (tree : k.Tree root) :
    (k.generations k.links.length [root]).flatten.Perm k.links := by
  have hnodup : (k.generations k.links.length [root]).flatten.Nodup :=
    generations_nodup tree.single tree.parentless (List.nodup_singleton root) below_root
  refine (List.perm_ext_iff_of_nodup hnodup tree.distinct).mpr fun link => ?_
  simp only [mem_flatten_iff_getElem?, tree.mem_generation]
  exact ⟨fun ⟨_, hb⟩ => tree.mem_of_below hb, tree.reaches link⟩

-- Taking the links from a queue is taking them generation by generation.
theorem traverse_eq (tree : k.Tree root) :
    k.traverse root = (k.generations k.links.length [root]).flatten := by
  have hfound : ∀ link ∈ [root], ∃ n ≤ 0, k.Below root n link := fun link hm =>
    ⟨0, Nat.le_refl 0, below_root link hm⟩
  have hvisit := visit_generations k.links.length tree.single tree.parentless
    (List.nodup_singleton root) below_root hfound
  rwa [tree.generations_perm.length_eq] at hvisit

theorem levels_eq (tree : k.Tree root) :
    k.levels root = k.generations k.links.length [root] := by
  rw [levels, tree.traverse_eq]
  exact cut_flatten_generations k.links.length [root]

theorem levels_flatten (tree : k.Tree root) : (k.levels root).flatten = k.traverse root := by
  rw [tree.levels_eq, tree.traverse_eq]

theorem mem_levels_getElem? (tree : k.Tree root) {depth : Nat} {link : String} :
    link ∈ (k.levels root)[depth]?.getD [] ↔ k.Below root depth link := by
  rw [tree.levels_eq, tree.mem_generation]

theorem levels_perm (tree : k.Tree root) : (k.levels root).flatten.Perm k.links := by
  rw [tree.levels_eq]
  exact tree.generations_perm

theorem mem_levels (tree : k.Tree root) {link : String} :
    link ∈ (k.levels root).flatten ↔ link ∈ k.links :=
  tree.levels_perm.mem_iff

theorem levels_nodup (tree : k.Tree root) : (k.levels root).flatten.Nodup :=
  tree.levels_perm.nodup_iff.mpr tree.distinct

theorem levels_pairwise (tree : k.Tree root) :
    (k.levels root).flatten.Pairwise (k.DepthLe root) := by
  rw [tree.levels_eq]
  exact generations_pairwise tree.single tree.parentless below_root

theorem levels_head (tree : k.Tree root) : (k.levels root).flatten.head? = some root := by
  obtain ⟨n, hn⟩ := Nat.exists_eq_add_of_le' (List.length_pos_of_mem tree.root_mem)
  simp [tree.levels_eq, hn, generations]

theorem ancestor_lt (tree : k.Tree root) {above below : String} (h : k.Ancestor above below)
    {m n : Nat} (hm : k.Below root m above) (hn : k.Below root n below) : m < n := by
  obtain ⟨d, hd⟩ := h.exists_below
  have he := tree.depth_unique (hm.trans hd) hn
  omega

-- Ancestors are less deep and so come before.
theorem levels_ancestor (tree : k.Tree root) {above below : String} (h : k.Ancestor above below) :
    [above, below].Sublist (k.levels root).flatten := by
  obtain ⟨d, hd⟩ := h.exists_below
  have hbelow := h.bottom_mem tree.declared
  have habove := hd.top_mem tree.declared hbelow
  obtain ⟨m, hm⟩ := tree.reaches above habove
  obtain ⟨n, hn⟩ := tree.reaches below hbelow
  have hlt := tree.ancestor_lt h hm hn
  apply pair_sublist_of_pairwise tree.levels_pairwise (tree.mem_levels.mpr habove)
    (tree.mem_levels.mpr hbelow)
  · rintro rfl
    exact tree.acyclic above h
  · intro hle
    have hge := hle n m hn hm
    omega

end Tree

end Linkage.Lineage.Kinship
