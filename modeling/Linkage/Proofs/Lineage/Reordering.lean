import Linkage.Proofs.Lineage.Order

namespace Linkage.Lineage

theorem Arrangement.exists_arrange {pairs other : List (String × String)}
    (hperm : other.Perm pairs) : ∃ order : Arrangement, order.arrange pairs = other := by
  refine ⟨⟨fun list => if list = pairs then other else list, fun list => ?_⟩, if_pos rfl⟩
  split
  · rename_i he
    exact he ▸ hperm
  · exact .refl list

namespace Kinship

-- The child of a pair of which an end is not declared.
def Dangling (k : Kinship) (child : String) : Prop :=
  ∃ parent, k.Holds parent child ∧ (child ∉ k.links ∨ parent ∉ k.links)

-- What is said of a pair of which an end is not declared.
def fault (k : Kinship) (child parent : String) : Failure :=
  if child ∉ k.links then .danglingChild child else .danglingParent child parent

theorem checkDeclared_eq_fault_or_declared (k : Kinship) :
    (k.checkDeclared = .ok () ∧ k.Declared) ∨
      ∃ parent child, k.Holds parent child ∧ (child ∉ k.links ∨ parent ∉ k.links) ∧
        k.checkDeclared = .error (k.fault child parent) := by
  rcases k.checkDeclared_cases with hok | ⟨p, c, he, hh, hc⟩ | ⟨p, c, he, hh, hc, hp⟩
  · exact .inl hok
  · exact .inr ⟨p, c, hh, .inl hc, by rw [he, fault, if_pos hc]⟩
  · exact .inr ⟨p, c, hh, .inr hp, by rw [he, fault, if_neg (not_not_intro hc)]⟩

-- A pair that comes first is the one that is named.
theorem checkDeclared_of_head {links : List String} {child parent : String}
    {rest : List (String × String)} (hend : child ∉ links ∨ parent ∉ links) :
    (⟨links, (child, parent) :: rest⟩ : Kinship).checkDeclared =
      .error ((⟨links, (child, parent) :: rest⟩ : Kinship).fault child parent) := by
  rw [checkDeclared_cons, fault]
  split
  · rfl
  · rename_i hchild
    rw [if_pos (hend.resolve_left hchild)]

section

variable {links : List String} {pairs other : List (String × String)}

theorem holds_of_perm (hperm : pairs.Perm other) :
    (⟨links, pairs⟩ : Kinship).Holds = (⟨links, other⟩ : Kinship).Holds := by
  funext parent child
  exact propext hperm.mem_iff

theorem singleParents_of_perm (hperm : pairs.Perm other)
    (hsingle : (⟨links, pairs⟩ : Kinship).SingleParents) :
    (⟨links, other⟩ : Kinship).SingleParents :=
  (hperm.map Prod.fst).nodup_iff.mp hsingle

-- Where no link has two parents, which one is found first does not matter.
theorem parent?_of_perm (hperm : pairs.Perm other)
    (hsingle : (⟨links, pairs⟩ : Kinship).SingleParents) :
    (⟨links, pairs⟩ : Kinship).parent? = (⟨links, other⟩ : Kinship).parent? := by
  funext child
  apply Option.ext
  intro parent
  rw [parent?_eq_some_iff hsingle, parent?_eq_some_iff (singleParents_of_perm hperm hsingle),
    holds_of_perm hperm]

theorem roots_of_perm (hperm : pairs.Perm other)
    (hsingle : (⟨links, pairs⟩ : Kinship).SingleParents) :
    (⟨links, pairs⟩ : Kinship).roots = (⟨links, other⟩ : Kinship).roots := by
  simp only [roots, parent?_of_perm hperm hsingle]

theorem mem_generations_of_perm (hperm : pairs.Perm other) {fuel : Nat} {level : List String}
    {link : String} :
    link ∈ ((⟨links, pairs⟩ : Kinship).generations fuel level).flatten ↔
      link ∈ ((⟨links, other⟩ : Kinship).generations fuel level).flatten := by
  have hholds : (⟨links, pairs⟩ : Kinship).Holds = (⟨links, other⟩ : Kinship).Holds :=
    holds_of_perm hperm
  rw [mem_generations, mem_generations]
  constructor
  · rintro ⟨n, hn, top, htop, hb⟩
    exact ⟨n, hn, top, htop, hb.congr hholds⟩
  · rintro ⟨n, hn, top, htop, hb⟩
    exact ⟨n, hn, top, htop, hb.congr hholds.symm⟩

-- The links of a generation come in the order of the pairs, but the strays do not.
theorem stray_of_perm (hperm : pairs.Perm other)
    (hsingle : (⟨links, pairs⟩ : Kinship).SingleParents) :
    (⟨links, pairs⟩ : Kinship).stray = (⟨links, other⟩ : Kinship).stray := by
  apply List.filter_congr
  intro link _
  rw [roots_of_perm hperm hsingle, Bool.eq_iff_iff, Bool.not_eq_true', Bool.not_eq_true',
    ← Bool.not_eq_true, ← Bool.not_eq_true, List.contains_iff_mem, List.contains_iff_mem,
    mem_generations_of_perm hperm]

theorem climbTo?_of_perm (hperm : pairs.Perm other)
    (hsingle : (⟨links, pairs⟩ : Kinship).SingleParents) (start : String) (fuel : Nat)
    (link : String) :
    (⟨links, pairs⟩ : Kinship).climbTo? start fuel link =
      (⟨links, other⟩ : Kinship).climbTo? start fuel link := by
  induction fuel generalizing link with
  | zero => rfl
  | succ fuel ih => simp only [climbTo?, parent?_of_perm hperm hsingle, ih]

theorem cyclic?_of_perm (hperm : pairs.Perm other)
    (hsingle : (⟨links, pairs⟩ : Kinship).SingleParents) :
    (⟨links, pairs⟩ : Kinship).cyclic? = (⟨links, other⟩ : Kinship).cyclic? := by
  have hleads : (⟨links, pairs⟩ : Kinship).leadsCycle = (⟨links, other⟩ : Kinship).leadsCycle := by
    funext link
    simp only [leadsCycle, cycle?, climbTo?_of_perm hperm hsingle]
  simp only [cyclic?, stray_of_perm hperm hsingle, parent?_of_perm hperm hsingle, hleads]

-- The check of the ends stops at the first pair that it refuses, and so at the same one if there is
-- no other.
theorem checkDeclared_of_perm (hperm : pairs.Perm other)
    (hsingle : (⟨links, pairs⟩ : Kinship).SingleParents)
    (hone : ∀ first second, (⟨links, pairs⟩ : Kinship).Dangling first →
      (⟨links, pairs⟩ : Kinship).Dangling second → first = second) :
    (⟨links, pairs⟩ : Kinship).checkDeclared = (⟨links, other⟩ : Kinship).checkDeclared := by
  have hholds : (⟨links, pairs⟩ : Kinship).Holds = (⟨links, other⟩ : Kinship).Holds :=
    holds_of_perm hperm
  rcases checkDeclared_eq_fault_or_declared ⟨links, pairs⟩ with
    ⟨hok, hd⟩ | ⟨parent, child, hh, hend, he⟩
  · rcases checkDeclared_eq_fault_or_declared ⟨links, other⟩ with
      ⟨hok', -⟩ | ⟨parent, child, hh, hend, -⟩
    · rw [hok, hok']
    · obtain ⟨hc, hp⟩ := hd parent child (hholds ▸ hh)
      exact (hend.elim (· hc) (· hp)).elim
  · rcases checkDeclared_eq_fault_or_declared ⟨links, other⟩ with
      ⟨-, hd⟩ | ⟨parent', child', hh', hend', he'⟩
    · obtain ⟨hc, hp⟩ := hd parent child (hholds ▸ hh)
      exact (hend.elim (· hc) (· hp)).elim
    · rw [← hholds] at hh'
      cases hone child child' ⟨parent, hh, hend⟩ ⟨parent', hh', hend'⟩
      cases hh.parent_unique hsingle hh'
      rw [he, he']
      rfl

-- With one fault at most, all that can be different is in which order the links of a generation come.
theorem order_error_of_perm (hperm : pairs.Perm other)
    (hsingle : (⟨links, pairs⟩ : Kinship).SingleParents)
    (hone : ∀ first second, (⟨links, pairs⟩ : Kinship).Dangling first →
      (⟨links, pairs⟩ : Kinship).Dangling second → first = second) {failure : Failure}
    (h : (⟨links, pairs⟩ : Kinship).order = .error failure) :
    (⟨links, other⟩ : Kinship).order = .error failure := by
  rw [order, checkDeclared_of_perm hperm hsingle hone, cyclic?_of_perm hperm hsingle,
    roots_of_perm hperm hsingle] at h
  rw [order]
  cases hcheck : (⟨links, other⟩ : Kinship).checkDeclared with
  | error found => simpa [hcheck, bind, Except.bind] using h
  | ok done =>
      simp only [hcheck, bind, Except.bind] at h ⊢
      split at h
      · exact h
      · split at h
        · exact h
        · cases h
        · exact h

end

end Kinship

end Linkage.Lineage
