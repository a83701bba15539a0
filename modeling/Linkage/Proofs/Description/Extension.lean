import Linkage.Proofs.Registry.Acceptance

namespace Linkage

open Body Description Lineage

theorem Lineage.Kinship.Below.mono {k other : Kinship}
    (hholds : ∀ parent child, k.Holds parent child → other.Holds parent child)
    {top bottom : String} {n : Nat} (h : k.Below top n bottom) : other.Below top n bottom := by
  induction h with
  | here => exact .here
  | step _ hh ih => exact .step ih (hholds _ _ hh)

namespace Description.Robot

variable {α : Type} {robot extended : Robot α} {presence extendedPresence : Presence} {link : Link α}
  {joint : Joint α}

-- A robot with a link more, under a new name, and a joint that holds it at a link that was there
-- before. The names that were there have the same written out as before, as they do where the joint
-- has a new name as well.
structure Extension (robot extended : Robot α) (presence extendedPresence : Presence)
    (link : Link α) (joint : Joint α) : Prop where
  links : extended.links.Perm (link :: robot.links)
  joints : extended.joints.Perm (joint :: robot.joints)
  fresh : ¬robot.Declares link.name
  child : joint.child = link.name
  parent : robot.Declares joint.parent
  inertial : ∀ name, robot.Declares name →
    (name ∈ presence.inertial ↔ name ∈ extendedPresence.inertial)
  axis : ∀ other ∈ robot.joints, other.name ∈ presence.axis ↔ other.name ∈ extendedPresence.axis

namespace Extension

variable (extension : robot.Extension extended presence extendedPresence link joint)

include extension

theorem ne_of_declares {name : String} (h : robot.Declares name) : name ≠ link.name := by
  rintro rfl
  exact extension.fresh h

theorem mem_links {other : Link α} : other ∈ extended.links ↔ other = link ∨ other ∈ robot.links := by
  rw [extension.links.mem_iff, List.mem_cons]

theorem mem_joints {other : Joint α} :
    other ∈ extended.joints ↔ other = joint ∨ other ∈ robot.joints := by
  rw [extension.joints.mem_iff, List.mem_cons]

theorem holds_iff {parent child : String} : extended.Holds parent child ↔
    (parent = joint.parent ∧ child = link.name) ∨ robot.Holds parent child := by
  simp only [Holds, extension.mem_joints]
  constructor
  · rintro ⟨other, rfl | hm, rfl, rfl⟩
    · exact .inl ⟨rfl, extension.child⟩
    · exact .inr ⟨other, hm, rfl, rfl⟩
  · rintro (⟨rfl, rfl⟩ | ⟨other, hm, rfl, rfl⟩)
    · exact ⟨joint, .inl rfl, rfl, extension.child⟩
    · exact ⟨other, .inr hm, rfl, rfl⟩

theorem declares_iff {name : String} :
    extended.Declares name ↔ name = link.name ∨ robot.Declares name := by
  simp only [Declares, extension.mem_links]
  constructor
  · rintro ⟨other, rfl | hm, rfl⟩
    · exact .inl rfl
    · exact .inr ⟨other, hm, rfl⟩
  · rintro (rfl | ⟨other, hm, rfl⟩)
    · exact ⟨link, .inl rfl, rfl⟩
    · exact ⟨other, .inr hm, rfl⟩

theorem child_ne (sound : robot.Sound) {other : Joint α} (hm : other ∈ robot.joints) :
    other.child ≠ link.name := by
  apply extension.ne_of_declares
  by_contra hchild
  exact sound.attached ⟨other, hm, .inl hchild⟩

theorem parent_ne (sound : robot.Sound) {other : Joint α} (hm : other ∈ robot.joints) :
    other.parent ≠ link.name := by
  apply extension.ne_of_declares
  by_contra hparent
  exact sound.attached ⟨other, hm, .inr hparent⟩

-- What is new holds nothing.
theorem not_holds (sound : robot.Sound) (child : String) : ¬extended.Holds link.name child := by
  rw [extension.holds_iff]
  rintro (⟨hparent, -⟩ | ⟨other, hm, hparent, -⟩)
  · exact extension.ne_of_declares extension.parent hparent.symm
  · exact extension.parent_ne sound hm hparent

theorem ancestor_of_ne (sound : robot.Sound) {above below : String}
    (h : extended.Ancestor above below) (hne : below ≠ link.name) : robot.Ancestor above below := by
  induction h with
  | single hh => exact .single ((extension.holds_iff.mp hh).resolve_left fun hnew => hne hnew.2)
  | @tail middle below _ hh ih =>
      have hold := (extension.holds_iff.mp hh).resolve_left fun hnew => hne hnew.2
      have hmiddle : middle ≠ link.name := by
        obtain ⟨other, hm, rfl, -⟩ := hold
        exact extension.parent_ne sound hm
      exact .tail (ih hmiddle) hold

theorem acyclic (sound : robot.Sound) (name : String) : ¬extended.Ancestor name name := by
  intro hcycle
  by_cases hne : name = link.name
  · subst hne
    obtain ⟨child, hh, -⟩ := Relation.TransGen.head'_iff.mp hcycle
    exact extension.not_holds sound child hh
  · exact sound.acyclic name (extension.ancestor_of_ne sound hcycle hne)

theorem names_perm : (extended.links.map Link.name).Perm (link.name :: robot.links.map Link.name) :=
  extension.links.map _

theorem roots_perm : extended.roots.Perm robot.roots := by
  have hnew : (extended.joints.all fun other => other.child != link.name) = false := by
    rw [List.all_eq_false]
    exact ⟨joint, extension.mem_joints.mpr (.inl rfl), by simp [extension.child]⟩
  refine (extension.names_perm.filter _).trans (List.Perm.of_eq ?_)
  rw [List.filter_cons_of_neg (by simp [hnew])]
  apply List.filter_congr
  intro name hm
  have hne : link.name ≠ name := (extension.ne_of_declares (List.mem_map.mp hm)).symm
  rw [extension.joints.all_eq, List.all_cons, extension.child]
  simp [hne]

theorem roots_eq_singleton_iff {root : String} : extended.roots = [root] ↔ robot.roots = [root] := by
  rw [← List.perm_singleton, ← List.perm_singleton, extension.roots_perm.congr_left]

theorem sound (sound : robot.Sound) : extended.Sound where
  distinct := by
    rw [extension.names_perm.nodup_iff, List.nodup_cons]
    exact ⟨fun hm => extension.fresh (List.mem_map.mp hm), sound.distinct⟩
  single := by
    rw [(extension.joints.map Joint.child).nodup_iff, List.map_cons, List.nodup_cons]
    refine ⟨?_, sound.single⟩
    intro hm
    obtain ⟨other, ho, hchild⟩ := List.mem_map.mp hm
    exact extension.child_ne sound ho (hchild.trans extension.child)
  attached := by
    rintro ⟨other, hm, hend⟩
    simp only [extension.declares_iff] at hend
    rcases extension.mem_joints.mp hm with rfl | hm
    · exact hend.elim (fun h => h (.inl extension.child)) (fun h => h (.inr extension.parent))
    · exact sound.attached ⟨other, hm, hend.imp (fun h hd => h (.inr hd)) (fun h hd => h (.inr hd))⟩
  acyclic := extension.acyclic sound
  rooted := extension.roots_perm.length_eq ▸ sound.rooted

theorem jointAbove?_of_ne (sound : robot.Sound) {name : String} (hne : name ≠ link.name) :
    extended.jointAbove? name = robot.jointAbove? name := by
  apply Option.ext
  intro other
  rw [jointAbove?_eq_some_iff (extension.sound sound).single, jointAbove?_eq_some_iff sound.single,
    extension.mem_joints]
  constructor
  · rintro ⟨rfl | hm, hchild⟩
    · exact absurd (hchild.symm.trans extension.child) hne
    · exact ⟨hm, hchild⟩
  · rintro ⟨hm, hchild⟩
    exact ⟨.inr hm, hchild⟩

theorem below_mono {pairs extendedPairs : List (String × String)} (hpairs : pairs.Perm robot.pairs)
    (hextended : extendedPairs.Perm extended.pairs) {top bottom : String} {n : Nat}
    (h : (robot.kinship pairs).Below top n bottom) :
    (extended.kinship extendedPairs).Below top n bottom := by
  refine h.mono fun parent child hh => ?_
  rw [kinship_holds hpairs] at hh
  rw [kinship_holds hextended]
  exact extension.holds_iff.mpr (.inr hh)

variable [Scalar α]

theorem segment?_eq (sound : robot.Sound) {other : Link α} (hm : other ∈ robot.links) :
    extended.segment? extendedPresence other = robot.segment? presence other := by
  have hne : other.name ≠ link.name := extension.ne_of_declares ⟨other, hm, rfl⟩
  symm
  apply segment?_congr (extension.jointAbove?_of_ne sound hne).symm
  intro above habove
  exact extension.axis above ((jointAbove?_eq_some_iff sound.single).mp habove).1

end Extension

end Description.Robot

end Linkage
