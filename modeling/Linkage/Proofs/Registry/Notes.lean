import Linkage.Proofs.Registry.Representation

namespace Linkage

open Body Description Lineage

variable {α : Type}

theorem Description.Robot.order_ne_degenerateAxis {robot : Robot α} {pairs : List (String × String)}
    (hpairs : pairs.Perm robot.pairs) : robot.order pairs ≠ .error .degenerateAxis := by
  rcases robot.order_cases pairs with ⟨link, he, -⟩ | ⟨name, he, -⟩ | ⟨he, hchildren, hnames⟩
  · simp [he]
  · simp [he]
  · have hsingle := kinship_singleParents hpairs (forall_not_heldTwice_iff.mp hchildren)
    have hverdict := Kinship.order_verdict (forall_not_namedTwice_iff.mp hnames) hsingle
    rw [he]
    intro h
    rw [h] at hverdict
    cases hverdict

namespace Registry

variable [Scalar α]

-- What is noted of a link that is entered or passed over.
def notes (robot : Robot α) (presence : Presence) (link : Link α) : List Event :=
  if presence.inertial.contains link.name then
    robot.warnings link ++ [.entered link.name (robot.parentOf link)]
  else [.skipped link.name]

-- The first link that has inertial data and cannot be entered, and the links before it.
structure Stops (robot : Robot α) (presence : Presence) (links before : List (Link α))
    (link : Link α) : Prop where
  split : ∃ after, links = before ++ link :: after
  inertial : link.name ∈ presence.inertial
  directionless : robot.segment? presence link = none
  first : ∀ other ∈ before, other.name ∈ presence.inertial → robot.segment? presence other ≠ none

-- A link that cannot be entered is warned of all the same, and nothing is noted after it.
theorem enroll_notes (robot : Robot α) (presence : Presence) (links : List (Link α)) :
    (∃ before link, Stops robot presence links before link ∧ enroll robot presence links =
      (before.flatMap (notes robot presence) ++ robot.warnings link, .error .degenerateAxis)) ∨
    (enroll robot presence links).1 = links.flatMap (notes robot presence) ∧
      ∃ entries, (enroll robot presence links).2 = .ok entries := by
  induction links with
  | nil => exact .inr ⟨rfl, [], rfl⟩
  | cons link rest ih =>
      by_cases hm : link.name ∈ presence.inertial
      · cases hs : robot.segment? presence link with
        | none =>
            refine .inl ⟨[], link, ⟨⟨rest, rfl⟩, hm, hs, by simp⟩, ?_⟩
            simp [enroll, hm, hs]
        | some segment =>
            rcases ih with ⟨before, last, stops, he⟩ | ⟨hnotes, entries, he⟩
            · obtain ⟨after, rfl⟩ := stops.split
              refine .inl ⟨link :: before, last, ⟨⟨after, rfl⟩, stops.inertial,
                stops.directionless, ?_⟩, ?_⟩
              · intro other ho hinertial
                rcases List.mem_cons.mp ho with rfl | ho
                · simp [hs]
                · exact stops.first other ho hinertial
              · simp [enroll, notes, hm, hs, he, Except.map]
            · refine .inr ⟨?_, (link.name, ⟨segment, robot.parentOf link⟩) :: entries, ?_⟩
              · simp [enroll, notes, hm, hs, hnotes]
              · simp [enroll, hm, hs, he, Except.map]
      · rcases ih with ⟨before, last, stops, he⟩ | ⟨hnotes, entries, he⟩
        · obtain ⟨after, rfl⟩ := stops.split
          refine .inl ⟨link :: before, last, ⟨⟨after, rfl⟩, stops.inertial,
            stops.directionless, ?_⟩, ?_⟩
          · intro other ho hinertial
            rcases List.mem_cons.mp ho with rfl | ho
            · exact absurd hinertial hm
            · exact stops.first other ho hinertial
          · simp [enroll, notes, hm, he]
        · refine .inr ⟨?_, entries, ?_⟩
          · simp [enroll, notes, hm, hnotes]
          · simp [enroll, hm, he]

-- Nothing is noted before the order of the links has been found.
theorem ofPairs_notes (robot : Robot α) (presence : Presence) {pairs : List (String × String)}
    (hpairs : pairs.Perm robot.pairs) :
    (∃ failure, failure ≠ .degenerateAxis ∧
      ofPairs robot presence pairs = ([], .error failure)) ∨
    (∃ before link, Stops robot presence robot.links before link ∧
      ofPairs robot presence pairs =
        (before.flatMap (notes robot presence) ++ robot.warnings link, .error .degenerateAxis)) ∨
    ∃ registry, ofPairs robot presence pairs =
      (robot.links.flatMap (notes robot presence), .ok registry) := by
  cases horder : robot.order pairs with
  | error failure =>
      refine .inl ⟨failure, ?_, by simp [ofPairs, horder]⟩
      rintro rfl
      exact Robot.order_ne_degenerateAxis hpairs horder
  | ok levels =>
      rcases enroll_notes robot presence robot.links with
        ⟨before, link, stops, he⟩ | ⟨hnotes, entries, he⟩
      · exact .inr (.inl ⟨before, link, stops, by simp [ofPairs, horder, he, Except.map]⟩)
      · refine .inr (.inr
          ⟨⟨entries, levels.map (·.filter ((entries.map Prod.fst).contains ·))⟩, ?_⟩)
        simp only [ofPairs, horder, hnotes, he, Except.map]

end Registry

end Linkage
