import Linkage.Proofs.Lineage.Descent

namespace Linkage.Lineage.Kinship

-- The first link is not deeper below the root than the second.
def DepthLe (k : Kinship) (root first second : String) : Prop :=
  ∀ m n, k.Below root m first → k.Below root n second → m ≤ n

variable {k : Kinship}

-- The generations in their order are what is none, one, two and so on below the first.
theorem mem_generations_getElem? {fuel depth : Nat} {level : List String} {link : String} :
    link ∈ (k.generations fuel level)[depth]?.getD [] ↔
      depth < fuel ∧ ∃ top ∈ level, k.Below top depth link := by
  induction fuel generalizing depth level with
  | zero => simp [generations]
  | succ fuel ih =>
      by_cases hempty : level = []
      · simp [generations, hempty]
      · have hlevel : level.isEmpty = false := by simpa using hempty
        simp only [generations, hlevel, Bool.false_eq_true, if_false]
        cases depth with
        | zero =>
            simp only [List.getElem?_cons_zero, Option.getD_some]
            constructor
            · exact fun hm => ⟨by omega, link, hm, .here⟩
            · rintro ⟨-, top, ht, hb⟩
              cases hb
              exact ht
        | succ depth =>
            simp only [List.getElem?_cons_succ, ih, List.mem_flatMap, mem_children,
              Below.succ_iff]
            constructor
            · rintro ⟨hd, child, ⟨top, ht, hh⟩, hb⟩
              exact ⟨by omega, top, ht, child, hh, hb⟩
            · rintro ⟨hd, top, ht, child, hh, hb⟩
              exact ⟨by omega, child, ⟨top, ht, hh⟩, hb⟩

theorem mem_flatten_iff_getElem? {levels : List (List String)} {link : String} :
    link ∈ levels.flatten ↔ ∃ depth : Nat, link ∈ levels[depth]?.getD [] := by
  rw [List.mem_flatten]
  constructor
  · rintro ⟨level, hl, hm⟩
    obtain ⟨depth, hd⟩ := List.mem_iff_getElem?.mp hl
    exact ⟨depth, by rwa [hd]⟩
  · rintro ⟨depth, hm⟩
    cases hd : levels[depth]? with
    | none => simp [hd] at hm
    | some level => exact ⟨level, List.mem_of_getElem? hd, by simpa [hd] using hm⟩

theorem mem_generations {fuel : Nat} {level : List String} {link : String} :
    link ∈ (k.generations fuel level).flatten ↔ ∃ n < fuel, ∃ top ∈ level, k.Below top n link := by
  simp only [mem_flatten_iff_getElem?, mem_generations_getElem?]

theorem children_nodup (hsingle : k.SingleParents) (parent : String) : (k.children parent).Nodup :=
  hsingle.sublist (List.filter_sublist.map _)

theorem flatMap_children_nodup (hsingle : k.SingleParents) {level : List String}
    (hlevel : level.Nodup) : (level.flatMap k.children).Nodup := by
  rw [List.nodup_flatMap]
  refine ⟨fun parent _ => children_nodup hsingle parent, hlevel.imp ?_⟩
  intro first second hne child hfirst hsecond
  exact hne ((mem_children.mp hfirst).parent_unique hsingle (mem_children.mp hsecond))

theorem below_of_mem_flatMap_children {root : String} {depth : Nat} {level : List String}
    (hlevel : ∀ link ∈ level, k.Below root depth link) :
    ∀ link ∈ level.flatMap k.children, k.Below root (depth + 1) link := by
  intro link hm
  obtain ⟨parent, hp, hc⟩ := List.mem_flatMap.mp hm
  exact .step (hlevel parent hp) (mem_children.mp hc)

-- Whatever follows a generation is deeper than it.
theorem lt_of_mem_generations (hsingle : k.SingleParents) {root : String}
    (hroot : k.Parentless root) {fuel depth n : Nat} {level : List String} {link : String}
    (hlevel : ∀ link ∈ level, k.Below root depth link)
    (hmem : link ∈ (k.generations fuel (level.flatMap k.children)).flatten)
    (hb : k.Below root n link) : depth < n := by
  obtain ⟨m, -, top, htop, hbelow⟩ := mem_generations.mp hmem
  have hwhole := (below_of_mem_flatMap_children hlevel top htop).trans hbelow
  have he := hwhole.depth_unique hsingle hroot hb
  omega

theorem generations_nodup (hsingle : k.SingleParents) {root : String} (hroot : k.Parentless root)
    {fuel depth : Nat} {level : List String} (hnodup : level.Nodup)
    (hlevel : ∀ link ∈ level, k.Below root depth link) :
    (k.generations fuel level).flatten.Nodup := by
  induction fuel generalizing depth level with
  | zero => simp [generations]
  | succ fuel ih =>
      simp only [generations]
      split
      · simp
      · rw [List.flatten_cons, List.nodup_append]
        refine ⟨hnodup, ih (flatMap_children_nodup hsingle hnodup)
          (below_of_mem_flatMap_children hlevel), ?_⟩
        rintro link hm other ho rfl
        have hlt := lt_of_mem_generations hsingle hroot hlevel ho (hlevel link hm)
        omega

theorem generations_pairwise (hsingle : k.SingleParents) {root : String}
    (hroot : k.Parentless root) {fuel depth : Nat} {level : List String}
    (hlevel : ∀ link ∈ level, k.Below root depth link) :
    (k.generations fuel level).flatten.Pairwise (k.DepthLe root) := by
  induction fuel generalizing depth level with
  | zero => simp [generations]
  | succ fuel ih =>
      simp only [generations]
      split
      · simp
      · rw [List.flatten_cons, List.pairwise_append]
        refine ⟨?_, ih (below_of_mem_flatMap_children hlevel), ?_⟩
        · apply List.pairwise_of_forall_mem_list
          intro first hf second hs m n hm hn
          have hfirst := (hlevel first hf).depth_unique hsingle hroot hm
          have hsecond := (hlevel second hs).depth_unique hsingle hroot hn
          omega
        · intro first hf second hs m n hm hn
          have hfirst := (hlevel first hf).depth_unique hsingle hroot hm
          have hsecond := lt_of_mem_generations hsingle hroot hlevel hs hn
          omega

end Linkage.Lineage.Kinship
