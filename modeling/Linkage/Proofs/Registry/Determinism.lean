import Linkage.Proofs.Lineage.Reordering
import Linkage.Proofs.Registry.Outcome

namespace Linkage

open Description Lineage

namespace Lineage.Kinship

variable {k other : Kinship}

theorem child_eq_of_fault_eq {first second parent otherParent : String}
    (h : k.fault first parent = other.fault second otherParent) : first = second := by
  unfold fault at h
  split at h <;> split at h <;> cases h <;> rfl

end Lineage.Kinship

namespace Description.Robot

variable {α : Type} {robot : Robot α} {pairs : List (String × String)}

-- One end of the joint is not declared.
def DanglesAt (robot : Robot α) (joint : Joint α) : Prop :=
  ¬robot.Declares joint.child ∨ ¬robot.Declares joint.parent

theorem kinship_dangling_iff (hpairs : pairs.Perm robot.pairs) {child : String} :
    (robot.kinship pairs).Dangling child ↔
      ∃ joint ∈ robot.joints, joint.child = child ∧ robot.DanglesAt joint := by
  simp only [Kinship.Dangling, kinship_holds hpairs, mem_kinship_links, Holds, DanglesAt]
  constructor
  · rintro ⟨parent, ⟨joint, hm, rfl, rfl⟩, hend⟩
    exact ⟨joint, hm, rfl, hend⟩
  · rintro ⟨joint, hm, rfl, hend⟩
    exact ⟨joint.parent, ⟨joint, hm, rfl, rfl⟩, hend⟩

theorem order_eq_kinship_order (hchildren : (robot.joints.map Joint.child).Nodup)
    (hnames : (robot.links.map Link.name).Nodup) (pairs : List (String × String)) :
    robot.order pairs = (robot.kinship pairs).order := by
  rcases robot.order_cases pairs with ⟨link, -, hd⟩ | ⟨name, -, -, hd⟩ | ⟨he, -⟩
  · exact (forall_not_heldTwice_iff.mpr hchildren link hd).elim
  · exact (forall_not_namedTwice_iff.mpr hnames name hd).elim
  · exact he

-- What comes twice is found without looking at the pairs.
theorem order_of_repeat (h : (∃ link, robot.HeldTwice link) ∨ ∃ name, robot.NamedTwice name)
    (pairs other : List (String × String)) : robot.order pairs = robot.order other := by
  simp only [order]
  cases hchild : firstRepeat? [] (robot.joints.map Joint.child) with
  | some link => rfl
  | none =>
      cases hname : firstRepeat? [] (robot.links.map Link.name) with
      | some name => rfl
      | none =>
          have hchildren := forall_not_heldTwice_iff.mpr (firstRepeat?_eq_none_iff.mp hchild).1
          have hnames := forall_not_namedTwice_iff.mpr (firstRepeat?_eq_none_iff.mp hname).1
          rcases h with ⟨link, hd⟩ | ⟨name, hd⟩
          · exact (hchildren link hd).elim
          · exact (hnames name hd).elim

theorem order_error_of_perm {other : List (String × String)} (hpairs : pairs.Perm robot.pairs)
    (hother : other.Perm robot.pairs) (hchildren : (robot.joints.map Joint.child).Nodup)
    (hnames : (robot.links.map Link.name).Nodup)
    (hone : ∀ first ∈ robot.joints, ∀ second ∈ robot.joints, robot.DanglesAt first →
      robot.DanglesAt second → first = second) {failure : Failure}
    (h : robot.order pairs = .error failure) : robot.order other = .error failure := by
  rw [order_eq_kinship_order hchildren hnames] at h ⊢
  refine Kinship.order_error_of_perm (hpairs.trans hother.symm)
    (kinship_singleParents hpairs hchildren) ?_ h
  intro first second hfirst hsecond
  obtain ⟨joint, hm, rfl, hend⟩ := (kinship_dangling_iff hpairs).mp hfirst
  obtain ⟨joint', hm', rfl, hend'⟩ := (kinship_dangling_iff hpairs).mp hsecond
  rw [hone joint hm joint' hm' hend hend']

-- Every joint that dangles is named in some order of the pairs.
theorem exists_order_eq_fault (hchildren : (robot.joints.map Joint.child).Nodup)
    (hnames : (robot.links.map Link.name).Nodup) {joint : Joint α} (hm : joint ∈ robot.joints)
    (hend : robot.DanglesAt joint) :
    ∃ pairs, pairs.Perm robot.pairs ∧
      robot.order pairs = .error ((robot.kinship pairs).fault joint.child joint.parent) := by
  have hpair : (joint.child, joint.parent) ∈ robot.pairs := mem_pairs.mpr ⟨joint, hm, rfl, rfl⟩
  refine ⟨_, (List.perm_cons_erase hpair).symm, ?_⟩
  rw [order_eq_kinship_order hchildren hnames]
  have hdangling : joint.child ∉ robot.links.map Link.name ∨
      joint.parent ∉ robot.links.map Link.name := by
    simpa only [DanglesAt, Declares, ← List.mem_map] using hend
  simp only [kinship, Kinship.order, Kinship.checkDeclared_of_head hdangling, bind, Except.bind]

end Description.Robot

namespace Registry

variable {α : Type} [Scalar α] {robot : Robot α} {presence : Presence}
  {pairs other : List (String × String)}

-- What is wrong with a link has nothing to do with the order, so that only the order of the links can
-- fail in more than one way.
theorem ofPairs_eq_of_error
    (horder : ∀ failure, robot.order pairs = .error failure ↔ robot.order other = .error failure)
    {failure : Failure} (h : (ofPairs robot presence pairs).2 = .error failure) :
    ofPairs robot presence other = ofPairs robot presence pairs := by
  cases hpairs : robot.order pairs with
  | error found => simp [ofPairs, hpairs, (horder found).mp hpairs]
  | ok levels =>
      cases hother : robot.order other with
      | error found => simp [(horder found).mpr hother] at hpairs
      | ok otherLevels =>
          rw [ofPairs_of_order_ok hpairs] at h
          cases henrolled : (enroll robot presence robot.links).2 with
          | error found => simp [ofPairs, hpairs, hother, henrolled, Except.map]
          | ok entries => simp [henrolled, Except.map] at h

-- A failure does not depend on the order in which the pairs come, unless that is all that there is to
-- choose between joints that dangle.
theorem ofPairs_deterministic_iff (robot : Robot α) (presence : Presence) :
    (∀ pairs other, pairs.Perm robot.pairs → other.Perm robot.pairs → ∀ failure,
      (ofPairs robot presence pairs).2 = .error failure →
        ofPairs robot presence other = ofPairs robot presence pairs) ↔
    (∃ link, robot.HeldTwice link) ∨ (∃ name, robot.NamedTwice name) ∨
      ∀ first ∈ robot.joints, ∀ second ∈ robot.joints,
        robot.DanglesAt first → robot.DanglesAt second → first = second := by
  constructor
  · intro hsame
    by_contra hmany
    simp only [not_or, not_exists, Robot.forall_not_heldTwice_iff, Robot.forall_not_namedTwice_iff]
      at hmany
    obtain ⟨hchildren, hnames, hmany⟩ := hmany
    apply hmany
    intro first hfirst second hsecond hend hend'
    obtain ⟨pairs, hpairs, he⟩ := Robot.exists_order_eq_fault hchildren hnames hfirst hend
    obtain ⟨other, hother, he'⟩ := Robot.exists_order_eq_fault hchildren hnames hsecond hend'
    have hfault : (ofPairs robot presence pairs).2 = _ := ofPairs_of_order_error he
    have hfault' : (ofPairs robot presence other).2 = _ := ofPairs_of_order_error he'
    rw [hsame pairs other hpairs hother _ hfault, hfault] at hfault'
    have hchild := Kinship.child_eq_of_fault_eq (Except.error.inj hfault')
    exact List.inj_on_of_nodup_map hchildren hfirst hsecond hchild
  · intro hwhy pairs other hpairs hother failure h
    apply ofPairs_eq_of_error (fun failure => ?_) h
    by_cases hrepeat : (∃ link, robot.HeldTwice link) ∨ ∃ name, robot.NamedTwice name
    · rw [Robot.order_of_repeat hrepeat pairs other]
    · have hone := (or_assoc.mpr hwhy).resolve_left hrepeat
      simp only [not_or, not_exists, Robot.forall_not_heldTwice_iff,
        Robot.forall_not_namedTwice_iff] at hrepeat
      obtain ⟨hchildren, hnames⟩ := hrepeat
      exact ⟨Robot.order_error_of_perm hpairs hother hchildren hnames hone,
        Robot.order_error_of_perm hother hpairs hchildren hnames hone⟩

-- A cart of which neither the wheel nor the truck that draws it is declared.
def trailer : Robot Float where
  links := [⟨"cart", none⟩]
  joints := [⟨"axle", .fixed, .here, "cart", "wheel", none⟩,
    ⟨"hitch", .fixed, .here, "truck", "cart", none⟩]

theorem ofPairs_trailer :
    trailer.pairs.reverse.Perm trailer.pairs ∧
      (ofPairs trailer ⟨[], []⟩ trailer.pairs).2 = .error (.danglingChild "wheel") ∧
      (ofPairs trailer ⟨[], []⟩ trailer.pairs.reverse).2 =
        .error (.danglingParent "cart" "truck") := by
  exact ⟨List.reverse_perm _, rfl, rfl⟩

end Registry

end Linkage
