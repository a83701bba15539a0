import Linkage.Lineage.Order
import Linkage.Proofs.Lineage.Cycle
import Linkage.Proofs.Lineage.Tree

namespace Linkage.Lineage.Kinship

-- What can be said of declared links and pairs when looking for an order. The cases exclude each
-- other.
inductive Verdict (k : Kinship) : Except Failure (List (List String)) → Prop where
  | danglingChild {parent child : String} :
      k.Holds parent child → child ∉ k.links → Verdict k (.error (.danglingChild child))
  | danglingParent {parent child : String} :
      k.Holds parent child → child ∈ k.links → parent ∉ k.links →
        Verdict k (.error (.danglingParent child parent))
  | cycle {link : String} :
      k.Declared → k.Ancestor link link → Verdict k (.error (.cycle link))
  | multipleRoots :
      k.Declared → k.Acyclic → 1 < k.roots.length → Verdict k (.error (.multipleRoots k.roots))
  | empty : k.links = [] → k.pairs = [] → Verdict k (.ok [])
  | tree {root : String} : k.Tree root → Verdict k (.ok (k.levels root))

variable {k : Kinship}

theorem checkDeclared_cons (links : List String) (child parent : String)
    (rest : List (String × String)) :
    (⟨links, (child, parent) :: rest⟩ : Kinship).checkDeclared =
      if child ∉ links then .error (.danglingChild child)
      else if parent ∉ links then .error (.danglingParent child parent)
      else (⟨links, rest⟩ : Kinship).checkDeclared := by
  simp only [checkDeclared, List.forM_eq_forM, List.forM_cons, List.contains_eq_mem,
    Bool.not_eq_true', decide_eq_false_iff_not]
  split
  · rfl
  · split
    · rfl
    · rfl

-- The pair that is named is among the pairs, whatever their order.
theorem checkDeclared_cases (k : Kinship) :
    (k.checkDeclared = .ok () ∧ k.Declared) ∨
    (∃ parent child, k.checkDeclared = .error (.danglingChild child) ∧
      k.Holds parent child ∧ child ∉ k.links) ∨
    ∃ parent child, k.checkDeclared = .error (.danglingParent child parent) ∧
      k.Holds parent child ∧ child ∈ k.links ∧ parent ∉ k.links := by
  obtain ⟨links, pairs⟩ := k
  induction pairs with
  | nil => exact .inl ⟨rfl, by simp [Declared, Holds]⟩
  | cons pair rest ih =>
      obtain ⟨child, parent⟩ := pair
      rw [checkDeclared_cons]
      by_cases hchild : child ∈ links
      · by_cases hparent : parent ∈ links
        · simp only [hchild, hparent, not_true_eq_false, if_false]
          rcases ih with ⟨hok, hd⟩ | ⟨p, c, he, hh, hrest⟩ | ⟨p, c, he, hh, hrest⟩
          · refine .inl ⟨hok, ?_⟩
            intro p c hh
            rcases List.mem_cons.mp hh with heq | hh
            · cases heq
              exact ⟨hchild, hparent⟩
            · exact hd p c hh
          · exact .inr (.inl ⟨p, c, he, List.mem_cons_of_mem _ hh, hrest⟩)
          · exact .inr (.inr ⟨p, c, he, List.mem_cons_of_mem _ hh, hrest⟩)
        · exact .inr (.inr ⟨parent, child, by simp [hchild, hparent],
            List.mem_cons_self, hchild, hparent⟩)
      · exact .inr (.inl ⟨parent, child, by simp [hchild], List.mem_cons_self, hchild⟩)

theorem tree_of_roots (hdistinct : k.links.Nodup) (hsingle : k.SingleParents)
    (hdeclared : k.Declared) (hacyclic : k.Acyclic) {root : String} (hroots : k.roots = [root]) :
    k.Tree root := by
  have hroot : root ∈ k.roots := by simp [hroots]
  obtain ⟨hm, hp⟩ := mem_roots.mp hroot
  refine ⟨hdistinct, hsingle, hdeclared, hm, hp, ?_⟩
  intro link hl
  obtain ⟨top, n, htop, hb⟩ := exists_parentless_above hsingle hdeclared hacyclic hl
  have ht : top ∈ k.roots := mem_roots.mpr ⟨hb.top_mem hdeclared hl, htop⟩
  rw [hroots, List.mem_singleton] at ht
  exact ⟨n, ht ▸ hb⟩

-- Going up from any link ends, so that links without a root there are none.
theorem links_eq_nil_of_roots (hsingle : k.SingleParents) (hdeclared : k.Declared)
    (hacyclic : k.Acyclic) (hroots : k.roots = []) : k.links = [] := by
  rw [List.eq_nil_iff_forall_not_mem]
  intro link hl
  obtain ⟨top, n, htop, hb⟩ := exists_parentless_above hsingle hdeclared hacyclic hl
  have ht : top ∈ k.roots := mem_roots.mpr ⟨hb.top_mem hdeclared hl, htop⟩
  simp [hroots] at ht

theorem order_verdict (hdistinct : k.links.Nodup) (hsingle : k.SingleParents) :
    k.Verdict k.order := by
  rcases k.checkDeclared_cases with ⟨hok, hd⟩ | ⟨p, c, he, hh, hc⟩ | ⟨p, c, he, hh, hc, hp⟩
  · simp only [order, hok, bind, Except.bind]
    cases hcyclic : k.cyclic? with
    | some link => exact .cycle hd (ancestor_of_cyclic? hsingle hcyclic)
    | none =>
        have hacyclic := (cyclic?_eq_none_iff hsingle hd).mp hcyclic
        cases hroots : k.roots with
        | nil =>
            have hlinks := links_eq_nil_of_roots hsingle hd hacyclic hroots
            have hpairs : k.pairs = [] := by
              rw [List.eq_nil_iff_forall_not_mem]
              rintro ⟨child, parent⟩ hm
              simpa [hlinks] using (hd parent child hm).1
            simp only [hlinks, List.isEmpty_nil, if_true]
            exact .empty hlinks hpairs
        | cons root rest =>
            cases rest with
            | nil => exact .tree (tree_of_roots hdistinct hsingle hd hacyclic hroots)
            | cons other rest =>
                have h := Verdict.multipleRoots hd hacyclic (by simp [hroots])
                rwa [hroots] at h
  · simp only [order, he, bind, Except.bind]
    exact .danglingChild hh hc
  · simp only [order, he, bind, Except.bind]
    exact .danglingParent hh hc hp

theorem Tree.order_eq {root : String} (tree : k.Tree root) : k.order = .ok (k.levels root) := by
  have hverdict := order_verdict tree.distinct tree.single
  generalize k.order = result at hverdict ⊢
  cases hverdict with
  | danglingChild hh hc => exact absurd (tree.declared _ _ hh).1 hc
  | danglingParent hh _ hp => exact absurd (tree.declared _ _ hh).2 hp
  | cycle _ hcycle => exact absurd hcycle (tree.acyclic _)
  | multipleRoots _ _ hmany => simp [tree.roots_eq] at hmany
  | empty hnone _ =>
      have hm := tree.root_mem
      simp [hnone] at hm
  | @tree other htree =>
      have he : [other] = [root] := htree.roots_eq.symm.trans tree.roots_eq
      cases he
      rfl

theorem order_eq_ok_cases (hdistinct : k.links.Nodup) (hsingle : k.SingleParents)
    {levels : List (List String)} (h : k.order = .ok levels) :
    (k.links = [] ∧ k.pairs = [] ∧ levels = []) ∨ ∃ root, k.Tree root ∧ levels = k.levels root := by
  have hverdict := order_verdict hdistinct hsingle
  rw [h] at hverdict
  cases hverdict with
  | empty hl hp => exact .inl ⟨hl, hp, rfl⟩
  | @tree root htree => exact .inr ⟨root, htree, rfl⟩

theorem Verdict.sound {levels : List (List String)} (h : k.Verdict (.ok levels)) :
    k.Declared ∧ k.Acyclic ∧ k.roots.length ≤ 1 := by
  cases h with
  | empty hlinks hpairs =>
      refine ⟨by simp [Declared, Holds, hpairs], ?_, by simp [roots, hlinks]⟩
      intro link hcycle
      obtain ⟨n, hb⟩ := hcycle.exists_below
      cases hb with
      | step _ hh => simp [Holds, hpairs] at hh
  | tree htree => exact ⟨htree.declared, htree.acyclic, by simp [htree.roots_eq]⟩

-- Each declared link is led down to in exactly one way.
def Spans (k : Kinship) (root : String) : Prop :=
  k.Declared ∧ root ∈ k.links ∧ ∀ link ∈ k.links, ∃! way, k.Path root way link

theorem spans_iff_tree (hdistinct : k.links.Nodup) (hsingle : k.SingleParents) {root : String} :
    k.Spans root ↔ k.Tree root := by
  constructor
  · rintro ⟨hd, hm, hpath⟩
    exact .of_existsUnique_path hdistinct hsingle hd hm hpath
  · exact fun tree => ⟨tree.declared, tree.root_mem, fun _ hm => tree.existsUnique_path hm⟩

theorem Tree.root_unique {first second : String} (hfirst : k.Tree first) (hsecond : k.Tree second) :
    first = second :=
  hsecond.eq_root_of_parentless hfirst.root_mem hfirst.parentless

theorem map_idxOf_perm_range (hdistinct : k.links.Nodup) {names : List String}
    (hperm : names.Perm k.links) : (names.map (k.links.idxOf ·)).Perm (List.range k.links.length) := by
  refine (hperm.map _).trans (List.Perm.of_eq ?_)
  apply List.ext_getElem
  · simp
  · intro i hi hi'
    simp [hdistinct.idxOf_getElem]

-- There is an order for no links at all, and else where one link spans all others. Being acyclic
-- with one parent at most and one root is enough for that: reaching every link is not checked.
theorem order_spanning (k : Kinship) (hdistinct : k.links.Nodup) (hsingle : k.SingleParents) :
    ((∃ levels, k.order = .ok levels) ↔
      (k.links = [] ∧ k.pairs = []) ∨ ∃! root, k.Spans root) ∧
    (∀ root, k.Spans root → k.pairs.length + 1 = k.links.length) ∧
    ∀ levels, k.order = .ok levels →
      levels.flatten.Perm k.links ∧
      (levels.flatten.map (k.links.idxOf ·)).Perm (List.range k.links.length) ∧
      (∀ above below, k.Ancestor above below → [above, below].Sublist levels.flatten) ∧
      ∀ root, k.Spans root →
        levels.flatten = k.traverse root ∧
        levels.flatten.head? = some root ∧
        levels.flatten.Pairwise (k.DepthLe root) ∧
        ∀ depth link, link ∈ levels[depth]?.getD [] ↔ k.Below root depth link := by
  refine ⟨⟨?_, ?_⟩, ?_, ?_⟩
  · rintro ⟨levels, h⟩
    rcases order_eq_ok_cases hdistinct hsingle h with ⟨hl, hp, -⟩ | ⟨root, tree, -⟩
    · exact .inl ⟨hl, hp⟩
    · refine .inr ⟨root, (spans_iff_tree hdistinct hsingle).mpr tree, ?_⟩
      intro other hother
      exact ((spans_iff_tree hdistinct hsingle).mp hother).root_unique tree
  · rintro (⟨hl, hp⟩ | ⟨root, hspans, -⟩)
    · obtain ⟨links, pairs⟩ := k
      cases hl
      cases hp
      exact ⟨[], rfl⟩
    · exact ⟨k.levels root, ((spans_iff_tree hdistinct hsingle).mp hspans).order_eq⟩
  · intro root hspans
    exact ((spans_iff_tree hdistinct hsingle).mp hspans).length_pairs
  · intro levels h
    rcases order_eq_ok_cases hdistinct hsingle h with ⟨hl, hp, rfl⟩ | ⟨root, tree, rfl⟩
    · have hperm : ([] : List (List String)).flatten.Perm k.links := by simp [hl]
      refine ⟨hperm, map_idxOf_perm_range hdistinct hperm, ?_, ?_⟩
      · intro above below ha
        obtain ⟨n, hb⟩ := ha.exists_below
        cases hb with
        | step _ hh => simp [Holds, hp] at hh
      · rintro root ⟨-, hm, -⟩
        simp [hl] at hm
    · refine ⟨tree.levels_perm, map_idxOf_perm_range hdistinct tree.levels_perm,
        fun above below ha => tree.levels_ancestor ha, ?_⟩
      intro other hspans
      cases ((spans_iff_tree hdistinct hsingle).mp hspans).root_unique tree
      exact ⟨tree.levels_flatten, tree.levels_head, tree.levels_pairwise,
        fun _ _ => tree.mem_levels_getElem?⟩

-- A torso with two arms, of which one has a hand.
def twoArms : Kinship where
  links := ["left", "torso", "hand", "right"]
  pairs := [("hand", "left"), ("right", "torso"), ("left", "torso")]

theorem order_twoArms :
    twoArms.links.Nodup ∧ twoArms.SingleParents ∧
      (∃! root, twoArms.Spans root) ∧
      twoArms.order = .ok [["torso"], ["right", "left"], ["hand"]] ∧
      [1, 3, 0, 2].Perm (List.range 4) := by
  have hdistinct : twoArms.links.Nodup := by decide
  have hsingle : twoArms.SingleParents := by
    unfold SingleParents
    decide
  have horder : twoArms.order = .ok [["torso"], ["right", "left"], ["hand"]] := by rfl
  obtain ⟨hiff, -, hall⟩ := order_spanning twoArms hdistinct hsingle
  refine ⟨hdistinct, hsingle, ?_, horder, (hall _ horder).2.1⟩
  rcases hiff.mp ⟨_, horder⟩ with ⟨hnone, -⟩ | hspans
  · cases hnone
  · exact hspans

end Linkage.Lineage.Kinship
