import Linkage.Description.Kinematics
import Linkage.Proofs.Lineage.Order
import Mathlib.Data.List.Duplicate

namespace Linkage.Lineage

theorem firstRepeat?_eq_none_iff {seen names : List String} :
    firstRepeat? seen names = none ↔ names.Nodup ∧ ∀ name ∈ names, name ∉ seen := by
  induction names generalizing seen with
  | nil => simp [firstRepeat?]
  | cons head rest ih =>
      by_cases hseen : head ∈ seen
      · simp [firstRepeat?, hseen]
      · simp only [firstRepeat?, List.contains_eq_mem, hseen, decide_false, Bool.false_eq_true,
          if_false, ih, List.nodup_cons, List.mem_cons, not_or, forall_eq_or_imp,
          not_false_eq_true, true_and]
        constructor
        · rintro ⟨hnodup, hrest⟩
          exact ⟨⟨fun hm => (hrest head hm).1 rfl, hnodup⟩, fun name hm => (hrest name hm).2⟩
        · rintro ⟨⟨hhead, hnodup⟩, hrest⟩
          refine ⟨hnodup, fun name hm => ⟨?_, hrest name hm⟩⟩
          rintro rfl
          exact hhead hm

theorem duplicate_of_firstRepeat? {seen names : List String} {name : String}
    (h : firstRepeat? seen names = some name) :
    List.Duplicate name names ∨ (name ∈ seen ∧ name ∈ names) := by
  induction names generalizing seen with
  | nil => simp [firstRepeat?] at h
  | cons head rest ih =>
      by_cases hseen : head ∈ seen
      · have he : head = name := by simpa [firstRepeat?, hseen] using h
        exact .inr ⟨he ▸ hseen, he ▸ List.mem_cons_self⟩
      · have hrest : firstRepeat? (head :: seen) rest = some name := by
          simpa [firstRepeat?, hseen] using h
        rcases ih hrest with hd | ⟨hs, hm⟩
        · exact .inl (hd.duplicate_cons head)
        · rcases List.mem_cons.mp hs with rfl | hs
          · exact .inl hm.duplicate_cons_self
          · exact .inr ⟨hs, List.mem_cons_of_mem _ hm⟩

end Linkage.Lineage

namespace Linkage.Description.Robot

open Lineage

variable {α : Type}

-- Some joint holds the link `child` at the link `parent`.
def Holds (robot : Robot α) (parent child : String) : Prop :=
  ∃ joint ∈ robot.joints, joint.parent = parent ∧ joint.child = child

-- A link is above another if at least one joint leads down to it.
def Ancestor (robot : Robot α) : String → String → Prop :=
  Relation.TransGen robot.Holds

def Declares (robot : Robot α) (name : String) : Prop :=
  ∃ link ∈ robot.links, link.name = name

-- The child of two joints.
def HeldTwice (robot : Robot α) (link : String) : Prop :=
  List.Duplicate link (robot.joints.map Joint.child)

-- The name of two links.
def NamedTwice (robot : Robot α) (name : String) : Prop :=
  List.Duplicate name (robot.links.map Link.name)

-- Some joint has an end that is not declared.
def Dangles (robot : Robot α) : Prop :=
  ∃ joint ∈ robot.joints, ¬robot.Declares joint.child ∨ ¬robot.Declares joint.parent

-- The links that are the child of no joint, in the order of their declaration.
def roots (robot : Robot α) : List String :=
  (robot.links.map Link.name).filter fun name => robot.joints.all fun joint => joint.child != name

def kinship (robot : Robot α) (pairs : List (String × String)) : Kinship :=
  ⟨robot.links.map Link.name, pairs⟩

variable {robot : Robot α} {pairs : List (String × String)}

theorem mem_pairs {parent child : String} :
    (child, parent) ∈ robot.pairs ↔ robot.Holds parent child := by
  simp only [Robot.pairs, List.mem_map, Prod.mk.injEq, Holds]
  constructor
  · rintro ⟨joint, hm, hc, hp⟩
    exact ⟨joint, hm, hp, hc⟩
  · rintro ⟨joint, hm, hp, hc⟩
    exact ⟨joint, hm, hc, hp⟩

theorem kinship_holds (hpairs : pairs.Perm robot.pairs) : (robot.kinship pairs).Holds = robot.Holds := by
  funext parent child
  exact propext (hpairs.mem_iff.trans mem_pairs)

theorem kinship_ancestor (hpairs : pairs.Perm robot.pairs) :
    (robot.kinship pairs).Ancestor = robot.Ancestor := by
  rw [Kinship.Ancestor, kinship_holds hpairs, Ancestor]

theorem mem_kinship_links {name : String} :
    name ∈ (robot.kinship pairs).links ↔ robot.Declares name :=
  List.mem_map

theorem kinship_declared_iff (hpairs : pairs.Perm robot.pairs) :
    (robot.kinship pairs).Declared ↔ ¬robot.Dangles := by
  simp only [Kinship.Declared, kinship_holds hpairs, mem_kinship_links, Dangles, Holds]
  constructor
  · rintro h ⟨joint, hm, hend⟩
    obtain ⟨hc, hp⟩ := h joint.parent joint.child ⟨joint, hm, rfl, rfl⟩
    exact hend.elim (· hc) (· hp)
  · rintro h parent child ⟨joint, hm, rfl, rfl⟩
    by_contra hend
    exact h ⟨joint, hm, not_and_or.mp hend⟩

theorem kinship_parentless_iff (hpairs : pairs.Perm robot.pairs) {name : String} :
    (robot.kinship pairs).Parentless name ↔ ∀ joint ∈ robot.joints, joint.child ≠ name := by
  simp only [Kinship.Parentless, kinship_holds hpairs, Holds]
  constructor
  · exact fun h joint hm hc => h joint.parent ⟨joint, hm, rfl, hc⟩
  · rintro h parent ⟨joint, hm, -, hc⟩
    exact h joint hm hc

theorem kinship_roots (hpairs : pairs.Perm robot.pairs) : (robot.kinship pairs).roots = robot.roots := by
  apply List.filter_congr
  intro name _
  rw [Bool.eq_iff_iff, Option.isNone_iff_eq_none, Kinship.parent?_eq_none_iff,
    kinship_parentless_iff hpairs]
  simp

theorem map_fst_perm (hpairs : pairs.Perm robot.pairs) :
    (pairs.map Prod.fst).Perm (robot.joints.map Joint.child) := by
  have h := hpairs.map Prod.fst
  rwa [Robot.pairs, List.map_map] at h

theorem kinship_singleParents (hpairs : pairs.Perm robot.pairs)
    (hsingle : (robot.joints.map Joint.child).Nodup) : (robot.kinship pairs).SingleParents :=
  (map_fst_perm hpairs).nodup_iff.mpr hsingle

theorem dangles_of_child {parent child : String} (hh : robot.Holds parent child)
    (hchild : ¬robot.Declares child) : robot.Dangles := by
  obtain ⟨joint, hm, -, rfl⟩ := hh
  exact ⟨joint, hm, .inl hchild⟩

theorem dangles_of_parent {parent child : String} (hh : robot.Holds parent child)
    (hparent : ¬robot.Declares parent) : robot.Dangles := by
  obtain ⟨joint, hm, rfl, -⟩ := hh
  exact ⟨joint, hm, .inr hparent⟩

theorem declares_of_ancestor (hdangles : ¬robot.Dangles) {above below : String}
    (h : robot.Ancestor above below) : robot.Declares below := by
  by_contra hbelow
  cases h with
  | single hh => exact hdangles (dangles_of_child hh hbelow)
  | tail _ hh => exact hdangles (dangles_of_child hh hbelow)

theorem forall_not_heldTwice_iff :
    (∀ link, ¬robot.HeldTwice link) ↔ (robot.joints.map Joint.child).Nodup :=
  List.nodup_iff_forall_not_duplicate.symm

theorem forall_not_namedTwice_iff :
    (∀ name, ¬robot.NamedTwice name) ↔ (robot.links.map Link.name).Nodup :=
  List.nodup_iff_forall_not_duplicate.symm

-- Children are looked at before names, and names before anything else.
theorem order_cases (robot : Robot α) (pairs : List (String × String)) :
    (∃ link, robot.order pairs = .error (.multipleParents link) ∧ robot.HeldTwice link) ∨
    (∃ name, robot.order pairs = .error (.duplicateLink name) ∧
      (∀ link, ¬robot.HeldTwice link) ∧ robot.NamedTwice name) ∨
    (robot.order pairs = (robot.kinship pairs).order ∧
      (∀ link, ¬robot.HeldTwice link) ∧ ∀ name, ¬robot.NamedTwice name) := by
  simp only [order]
  cases hchild : firstRepeat? [] (robot.joints.map Joint.child) with
  | some link =>
      have hd := (duplicate_of_firstRepeat? hchild).resolve_right (by simp)
      exact .inl ⟨link, rfl, hd⟩
  | none =>
      have hchildren := forall_not_heldTwice_iff.mpr (firstRepeat?_eq_none_iff.mp hchild).1
      cases hname : firstRepeat? [] (robot.links.map Link.name) with
      | some name =>
          have hd := (duplicate_of_firstRepeat? hname).resolve_right (by simp)
          exact .inr (.inl ⟨name, rfl, hchildren, hd⟩)
      | none =>
          have hnames := forall_not_namedTwice_iff.mpr (firstRepeat?_eq_none_iff.mp hname).1
          exact .inr (.inr ⟨rfl, hchildren, hnames⟩)

theorem jointAbove?_eq_some_iff (hsingle : (robot.joints.map Joint.child).Nodup) {link : String}
    {joint : Joint α} :
    robot.jointAbove? link = some joint ↔ joint ∈ robot.joints ∧ joint.child = link := by
  constructor
  · intro h
    exact ⟨List.mem_of_find?_eq_some h, by simpa using List.find?_some h⟩
  · rintro ⟨hm, hc⟩
    cases h : robot.jointAbove? link with
    | none =>
        have hnone := List.find?_eq_none.mp h joint hm
        simp [hc] at hnone
    | some other =>
        have ho : other.child = link := by simpa using List.find?_some h
        have he := List.inj_on_of_nodup_map hsingle (List.mem_of_find?_eq_some h) hm (ho.trans hc.symm)
        rw [he]

theorem parentOf_eq_some_iff (hsingle : (robot.joints.map Joint.child).Nodup) {link : Link α}
    {parent : String} : robot.parentOf link = some parent ↔ robot.Holds parent link.name := by
  simp only [parentOf, Option.map_eq_some_iff, jointAbove?_eq_some_iff hsingle, Holds]
  constructor
  · rintro ⟨joint, ⟨hm, hc⟩, hp⟩
    exact ⟨joint, hm, hp, hc⟩
  · rintro ⟨joint, hm, hp, hc⟩
    exact ⟨joint, ⟨hm, hc⟩, hp⟩

theorem parentOf_eq_none_iff {link : Link α} :
    robot.parentOf link = none ↔ ∀ joint ∈ robot.joints, joint.child ≠ link.name := by
  simp [parentOf, jointAbove?]

-- What is a given number of joints below a link.
def Below (robot : Robot α) : String → Nat → String → Prop :=
  (robot.kinship robot.pairs).Below

-- The first link is no more joints below the root than the second.
def DepthLe (robot : Robot α) : String → String → String → Prop :=
  (robot.kinship robot.pairs).DepthLe

theorem kinship_below (hpairs : pairs.Perm robot.pairs) : (robot.kinship pairs).Below = robot.Below := by
  have hholds : (robot.kinship pairs).Holds = (robot.kinship robot.pairs).Holds := by
    rw [kinship_holds hpairs, kinship_holds (.refl _)]
  funext top n bottom
  exact propext ⟨Kinship.Below.congr hholds, Kinship.Below.congr hholds.symm⟩

theorem kinship_depthLe (hpairs : pairs.Perm robot.pairs) :
    (robot.kinship pairs).DepthLe = robot.DepthLe := by
  funext root first second
  simp only [DepthLe, Kinship.DepthLe, kinship_below hpairs, Below]

end Linkage.Description.Robot
