import Linkage.Lineage.Cycle
import Linkage.Proofs.Lineage.Generations

namespace Linkage.Lineage.Kinship

variable {k : Kinship}

theorem Ancestor.parent_of_cycle (hsingle : k.SingleParents) {link child parent : String}
    (hcycle : k.Ancestor link link) (habove : k.Ancestor link child) (hh : k.Holds parent child) :
    k.Ancestor link parent := by
  cases habove with
  | single hh' => exact hh'.parent_unique hsingle hh ▸ hcycle
  | tail habove hh' => exact hh'.parent_unique hsingle hh ▸ habove

-- What is above a link on a cycle is on the same cycle.
theorem Ancestor.symm_of_cycle (hsingle : k.SingleParents) {link other : String}
    (hcycle : k.Ancestor link link) (habove : k.Ancestor other link) : k.Ancestor link other := by
  induction habove using Relation.TransGen.head_induction_on with
  | single hh => exact hcycle.parent_of_cycle hsingle hcycle hh
  | head hh _ ih => exact hcycle.parent_of_cycle hsingle ih hh

-- A climb goes one link up, and ends there or goes on.
theorem climbTo?_succ (hsingle : k.SingleParents) {start link : String} {fuel : Nat}
    {members : List String} (h : k.climbTo? start (fuel + 1) link = some members) :
    ∃ parent, k.Holds parent link ∧
      ((parent = start ∧ members = [link]) ∨
        ∃ above, k.climbTo? start fuel parent = some above ∧ members = link :: above) := by
  cases hp : k.parent? link with
  | none => simp [climbTo?, hp] at h
  | some parent =>
      refine ⟨parent, (parent?_eq_some_iff hsingle parent link).mp hp, ?_⟩
      by_cases hs : parent = start
      · simp only [climbTo?, hp, hs, if_true, Option.some.injEq] at h
        exact .inl ⟨hs, h.symm⟩
      · simp only [climbTo?, hp, hs, if_false, Option.map_eq_some_iff] at h
        obtain ⟨above, ha, he⟩ := h
        exact .inr ⟨above, ha, he.symm⟩

theorem climbTo?_ancestor (hsingle : k.SingleParents) {start link : String} {fuel : Nat}
    {members : List String} (h : k.climbTo? start fuel link = some members) :
    k.Ancestor start link := by
  induction fuel generalizing link members with
  | zero => simp [climbTo?] at h
  | succ fuel ih =>
      obtain ⟨parent, hh, ⟨rfl, -⟩ | ⟨above, ha, -⟩⟩ := climbTo?_succ hsingle h
      · exact .single hh
      · exact .tail (ih ha) hh

theorem climbTo?_self_mem (hsingle : k.SingleParents) {start link : String} {fuel : Nat}
    {members : List String} (h : k.climbTo? start fuel link = some members) : link ∈ members := by
  cases fuel with
  | zero => simp [climbTo?] at h
  | succ fuel =>
      obtain ⟨parent, -, ⟨-, rfl⟩ | ⟨above, -, rfl⟩⟩ := climbTo?_succ hsingle h
      · exact List.mem_singleton_self link
      · exact List.mem_cons_self

theorem climbTo?_above (hsingle : k.SingleParents) {start link : String} {fuel : Nat}
    {members : List String} (h : k.climbTo? start fuel link = some members) :
    ∀ member ∈ members, member = link ∨ k.Ancestor member link := by
  induction fuel generalizing link members with
  | zero => simp [climbTo?] at h
  | succ fuel ih =>
      intro member hm
      obtain ⟨parent, hh, ⟨-, rfl⟩ | ⟨above, ha, rfl⟩⟩ := climbTo?_succ hsingle h
      · exact .inl (List.mem_singleton.mp hm)
      · rcases List.mem_cons.mp hm with rfl | hm
        · exact .inl rfl
        · rcases ih ha member hm with rfl | habove
          · exact .inr (.single hh)
          · exact .inr (.tail habove hh)

-- The links met on the way up go on without a gap to the one where the way ends.
theorem climbTo?_closed (hsingle : k.SingleParents) {start link : String} {fuel : Nat}
    {members : List String} (h : k.climbTo? start fuel link = some members) :
    ∀ member ∈ members, ∀ parent, k.Holds parent member → parent = start ∨ parent ∈ members := by
  induction fuel generalizing link members with
  | zero => simp [climbTo?] at h
  | succ fuel ih =>
      intro member hm parent hp
      obtain ⟨next, hh, ⟨rfl, rfl⟩ | ⟨above, ha, rfl⟩⟩ := climbTo?_succ hsingle h
      · cases List.mem_singleton.mp hm
        exact .inl (hp.parent_unique hsingle hh)
      · rcases List.mem_cons.mp hm with rfl | hm
        · cases hp.parent_unique hsingle hh
          exact .inr (List.mem_cons_of_mem _ (climbTo?_self_mem hsingle ha))
        · exact (ih ha member hm parent hp).imp id (List.mem_cons_of_mem _)

theorem exists_climbTo? (hsingle : k.SingleParents) {start link : String} {fuel n : Nat}
    (h : k.Below start (n + 1) link) (hfuel : n < fuel) :
    ∃ members, k.climbTo? start fuel link = some members := by
  induction fuel generalizing n link with
  | zero => omega
  | succ fuel ih =>
      cases h with
      | @step _ parent _ hb hh =>
          have hp := (parent?_eq_some_iff hsingle parent link).mpr hh
          by_cases hs : parent = start
          · exact ⟨[link], by simp [climbTo?, hp, hs]⟩
          · cases n with
            | zero =>
                cases hb
                exact absurd rfl hs
            | succ n =>
                obtain ⟨members, hm⟩ := ih hb (by omega)
                exact ⟨link :: members, by simp [climbTo?, hp, hs, hm]⟩

theorem mem_cycle_iff (hsingle : k.SingleParents) {link member : String} {members : List String}
    (h : k.cycle? link = some members) : member ∈ members ↔ k.Ancestor member link := by
  have hcycle : k.Ancestor link link := climbTo?_ancestor hsingle h
  constructor
  · intro hm
    rcases climbTo?_above hsingle h member hm with rfl | habove
    · exact hcycle
    · exact habove
  · have hclosed : ∀ member ∈ members, ∀ parent, k.Holds parent member → parent ∈ members := by
      intro member hm parent hh
      rcases climbTo?_closed hsingle h member hm parent hh with rfl | hp
      · exact climbTo?_self_mem hsingle h
      · exact hp
    intro habove
    induction habove using Relation.TransGen.head_induction_on with
    | single hh => exact hclosed link (climbTo?_self_mem hsingle h) _ hh
    | head hh _ ih => exact hclosed _ ih _ hh

theorem exists_cycle? (hsingle : k.SingleParents) (hdeclared : k.Declared) {link : String}
    (h : k.Ancestor link link) : ∃ members, k.cycle? link = some members := by
  obtain ⟨n, hn, hb⟩ := h.exists_short hdeclared
  exact exists_climbTo? hsingle hb hn

theorem ancestor_of_leadsCycle (hsingle : k.SingleParents) {link : String}
    (h : k.leadsCycle link = true) : k.Ancestor link link := by
  cases hc : k.cycle? link with
  | none => simp [leadsCycle, hc] at h
  | some members => exact climbTo?_ancestor hsingle hc

-- Links on one cycle agree on who is on it, and so on who is declared first.
theorem exists_leadsCycle (hsingle : k.SingleParents) (hdeclared : k.Declared) {link : String}
    (h : k.Ancestor link link) : ∃ leader, k.Ancestor leader leader ∧ k.leadsCycle leader = true := by
  obtain ⟨members, hc⟩ := exists_cycle? hsingle hdeclared h
  have hfound : (k.links.find? members.contains).isSome := by
    rw [List.find?_isSome]
    exact ⟨link, h.bottom_mem hdeclared, by simpa using climbTo?_self_mem hsingle hc⟩
  obtain ⟨leader, hleader⟩ := Option.isSome_iff_exists.mp hfound
  have hm : leader ∈ members := by simpa using List.find?_some hleader
  have hupper := (mem_cycle_iff hsingle hc).mp hm
  have hlower := h.symm_of_cycle hsingle hupper
  have hself : k.Ancestor leader leader := hupper.trans hlower
  obtain ⟨others, ho⟩ := exists_cycle? hsingle hdeclared hself
  have hsame : others.contains = members.contains := by
    funext member
    rw [Bool.eq_iff_iff, List.contains_iff_mem, List.contains_iff_mem, mem_cycle_iff hsingle ho,
      mem_cycle_iff hsingle hc]
    exact ⟨fun ha => ha.trans hupper, fun ha => ha.trans hlower⟩
  have hfirst : k.links.find? others.contains = some leader := by rw [hsame, hleader]
  refine ⟨leader, hself, ?_⟩
  simp only [leadsCycle, ho, hfirst, beq_self_eq_true]

-- No root leads down to a cycle.
theorem Ancestor.mem_stray (hsingle : k.SingleParents) (hdeclared : k.Declared) {link : String}
    (h : k.Ancestor link link) : link ∈ k.stray := by
  simp only [stray, List.mem_filter, Bool.not_eq_true', List.contains_eq_mem, decide_eq_false_iff_not]
  refine ⟨h.bottom_mem hdeclared, ?_⟩
  intro hreached
  obtain ⟨n, -, root, hroot, hb⟩ := mem_generations.mp hreached
  obtain ⟨m, hloop⟩ := h.exists_below
  have he := hb.depth_unique hsingle (mem_roots.mp hroot).2 (hb.trans hloop)
  omega

theorem ancestor_of_cyclic? (hsingle : k.SingleParents) {link : String}
    (h : k.cyclic? = some link) : k.Ancestor link link := by
  simp only [cyclic?] at h
  split at h
  · rename_i own hown
    cases h
    have hp : k.parent? link = some link := by simpa using List.find?_some hown
    exact .single ((parent?_eq_some_iff hsingle link link).mp hp)
  · obtain ⟨leader, hlast, hp⟩ := Option.bind_eq_some_iff.mp h
    have hleads := (List.mem_filter.mp (List.mem_of_getLast? hlast)).2
    have hcycle := ancestor_of_leadsCycle hsingle hleads
    have hh := (parent?_eq_some_iff hsingle link leader).mp hp
    exact .head hh (hcycle.parent_of_cycle hsingle hcycle hh)

theorem cyclic?_eq_none_iff (hsingle : k.SingleParents) (hdeclared : k.Declared) :
    k.cyclic? = none ↔ k.Acyclic := by
  constructor
  · intro h link hcycle
    obtain ⟨leader, hself, hleads⟩ := exists_leadsCycle hsingle hdeclared hcycle
    have hm : leader ∈ k.stray.filter k.leadsCycle :=
      List.mem_filter.mpr ⟨hself.mem_stray hsingle hdeclared, hleads⟩
    simp only [cyclic?] at h
    split at h
    · simp at h
    · cases hlast : (k.stray.filter k.leadsCycle).getLast? with
      | none =>
          rw [List.getLast?_eq_none_iff] at hlast
          simp [hlast] at hm
      | some last =>
          have hlead := (List.mem_filter.mp (List.mem_of_getLast? hlast)).2
          obtain ⟨n, hb⟩ := (ancestor_of_leadsCycle hsingle hlead).exists_below
          cases hb with
          | step _ hh => simp [hlast, (parent?_eq_some_iff hsingle _ last).mpr hh] at h
  · intro hacyclic
    cases h : k.cyclic? with
    | none => rfl
    | some link => exact absurd (ancestor_of_cyclic? hsingle h) (hacyclic link)

end Linkage.Lineage.Kinship
