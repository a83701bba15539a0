import Linkage.Lineage.Traversal
import Linkage.Proofs.Lineage.Generations

namespace Linkage.Lineage

theorem Search.foldl_discover {queue found links : List String}
    (hfresh : ∀ link ∈ links, link ∉ found) (hnodup : links.Nodup) :
    links.foldl discover ⟨queue, found⟩ = ⟨queue ++ links, links.reverse ++ found⟩ := by
  induction links generalizing queue found with
  | nil => simp
  | cons link rest ih =>
      obtain ⟨hnot, hrest⟩ := List.nodup_cons.mp hnodup
      have hstep : discover ⟨queue, found⟩ link = ⟨queue ++ [link], link :: found⟩ := by
        simp [discover, hfresh link List.mem_cons_self]
      have hlater : ∀ other ∈ rest, other ∉ link :: found := by
        intro other hm
        rw [List.mem_cons, not_or]
        exact ⟨fun he => hnot (he ▸ hm), hfresh other (List.mem_cons_of_mem _ hm)⟩
      rw [List.foldl_cons, hstep, ih hlater hrest]
      simp

namespace Kinship

variable {k : Kinship}

theorem visit_cons {fuel : Nat} {link : String} {waiting found : List String} :
    k.visit (fuel + 1) ⟨link :: waiting, found⟩ =
      link :: k.visit fuel ((k.children link).foldl .discover ⟨waiting, found⟩) :=
  rfl

-- While a generation is taken link by link, the queue holds what is left of it and after that the
-- children found so far.
theorem visit_append (fuel : Nat) (later : List String) {level found : List String}
    (hfresh : ∀ child ∈ level.flatMap k.children, child ∉ found)
    (hnodup : (level.flatMap k.children).Nodup) :
    k.visit (level.length + fuel) ⟨level ++ later, found⟩ =
      level ++ k.visit fuel
        ⟨later ++ level.flatMap k.children, (level.flatMap k.children).reverse ++ found⟩ := by
  induction level generalizing later found with
  | nil => simp
  | cons link rest ih =>
      rw [List.flatMap_cons, List.nodup_append] at hnodup
      obtain ⟨hchildren, hrest, hapart⟩ := hnodup
      have hnew : ∀ child ∈ k.children link, child ∉ found := fun child hm =>
        hfresh child (by simp [hm])
      have hlater : ∀ child ∈ rest.flatMap k.children,
          child ∉ (k.children link).reverse ++ found := by
        intro child hm
        rw [List.mem_append, List.mem_reverse, not_or]
        exact ⟨fun hc => hapart child hc child hm rfl,
          hfresh child (by rw [List.flatMap_cons]; exact List.mem_append_right _ hm)⟩
      have hlength : (link :: rest).length + fuel = rest.length + fuel + 1 := by
        rw [List.length_cons]
        omega
      rw [hlength, List.cons_append, visit_cons, Search.foldl_discover hnew hchildren,
        List.append_assoc, ih _ hlater hrest]
      simp

-- Whatever was found is no deeper than the queue, and so no child of the queue is among it.
theorem visit_generations (fuel : Nat) (hsingle : k.SingleParents) {root : String}
    (hroot : k.Parentless root) {depth : Nat} {level found : List String} (hnodup : level.Nodup)
    (hlevel : ∀ link ∈ level, k.Below root depth link)
    (hfound : ∀ link ∈ found, ∃ n ≤ depth, k.Below root n link) :
    k.visit (k.generations fuel level).flatten.length ⟨level, found⟩ =
      (k.generations fuel level).flatten := by
  induction fuel generalizing depth level found with
  | zero => rfl
  | succ fuel ih =>
      by_cases hempty : level = []
      · simp [generations, hempty, visit]
      · have hgenerations : (k.generations (fuel + 1) level).flatten =
            level ++ (k.generations fuel (level.flatMap k.children)).flatten := by
          simp [generations, hempty]
        have hchildren := below_of_mem_flatMap_children hlevel
        have hfresh : ∀ child ∈ level.flatMap k.children, child ∉ found := by
          intro child hm hf
          obtain ⟨n, hn, hb⟩ := hfound child hf
          have he := hb.depth_unique hsingle hroot (hchildren child hm)
          omega
        have hnext := flatMap_children_nodup hsingle hnodup
        have hlater : ∀ link ∈ (level.flatMap k.children).reverse ++ found,
            ∃ n ≤ depth + 1, k.Below root n link := by
          intro link hm
          rcases List.mem_append.mp hm with hm | hm
          · exact ⟨depth + 1, Nat.le_refl _, hchildren link (List.mem_reverse.mp hm)⟩
          · obtain ⟨n, hn, hb⟩ := hfound link hm
            exact ⟨n, by omega, hb⟩
        have hlevels := visit_append (k.generations fuel (level.flatMap k.children)).flatten.length
          [] hfresh hnext
        rw [List.append_nil, List.nil_append, ih hnext hchildren hlater] at hlevels
        rw [hgenerations, List.length_append, hlevels]

theorem cut_flatten_generations (fuel : Nat) (level : List String) :
    k.cut fuel level.length (k.generations fuel level).flatten = k.generations fuel level := by
  induction fuel generalizing level with
  | zero => rfl
  | succ fuel ih =>
      by_cases hempty : level = []
      · simp [generations, hempty, cut]
      · simp only [generations, List.isEmpty_iff, hempty, if_false, List.flatten_cons, cut,
          List.take_left, List.drop_left, ih]

end Kinship

end Linkage.Lineage
