import Linkage.Proofs.Description.Ancestry
import Linkage.Registry

namespace Linkage.Registry

open Body Description

variable {α : Type} [Scalar α]

-- Some link with inertial data has no direction to move in.
def Directionless (robot : Robot α) (presence : Presence) : Prop :=
  ∃ link ∈ robot.links, link.name ∈ presence.inertial ∧ robot.segment? presence link = none

-- What is entered for a link that has inertial data.
def entryOf (robot : Robot α) (presence : Presence) (link : Link α) : Option (String × Entry α) :=
  if presence.inertial.contains link.name then
    (robot.segment? presence link).map fun segment => (link.name, ⟨segment, robot.parentOf link⟩)
  else none

variable (robot : Robot α) (presence : Presence)

-- Going through the links stops at the first that cannot be entered, and else enters all.
theorem enroll_cases (links : List (Link α)) :
    ((enroll robot presence links).2 = .error .degenerateAxis ∧
      ∃ link ∈ links, link.name ∈ presence.inertial ∧ robot.segment? presence link = none) ∨
    ((enroll robot presence links).2 = .ok (links.filterMap (entryOf robot presence)) ∧
      ∀ link ∈ links, link.name ∈ presence.inertial → ∃ segment,
        robot.segment? presence link = some segment) := by
  induction links with
  | nil => exact .inr ⟨rfl, by simp⟩
  | cons link rest ih =>
      by_cases hm : link.name ∈ presence.inertial
      · cases hs : robot.segment? presence link with
        | none =>
            exact .inl ⟨by simp [enroll, hm, hs], link, List.mem_cons_self, hm, hs⟩
        | some segment =>
            rcases ih with ⟨he, other, ho, hbad⟩ | ⟨he, hall⟩
            · exact .inl ⟨by simp [enroll, hm, hs, he, Except.map], other,
                List.mem_cons_of_mem _ ho, hbad⟩
            · refine .inr ⟨by simp [enroll, entryOf, hm, hs, he, Except.map], ?_⟩
              intro other ho hinertial
              rcases List.mem_cons.mp ho with rfl | ho
              · exact ⟨segment, hs⟩
              · exact hall other ho hinertial
      · rcases ih with ⟨he, other, ho, hbad⟩ | ⟨he, hall⟩
        · exact .inl ⟨by simp [enroll, hm, he], other, List.mem_cons_of_mem _ ho, hbad⟩
        · refine .inr ⟨by simp [enroll, entryOf, hm, he], ?_⟩
          intro other ho hinertial
          rcases List.mem_cons.mp ho with rfl | ho
          · exact absurd hinertial hm
          · exact hall other ho hinertial

theorem enroll_links_cases :
    ((enroll robot presence robot.links).2 = .error .degenerateAxis ∧ Directionless robot presence) ∨
    ((enroll robot presence robot.links).2 = .ok (robot.links.filterMap (entryOf robot presence)) ∧
      ¬Directionless robot presence) := by
  rcases enroll_cases robot presence robot.links with h | ⟨he, hall⟩
  · exact .inl h
  · refine .inr ⟨he, ?_⟩
    rintro ⟨link, hm, hinertial, hs⟩
    obtain ⟨segment, hsome⟩ := hall link hm hinertial
    simp [hs] at hsome

end Linkage.Registry
