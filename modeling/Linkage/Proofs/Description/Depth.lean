import Linkage.Proofs.Description.Ancestry

namespace Linkage.Description.Robot

open Lineage

variable {α : Type}

-- How many joints are gone through on the way up from a link.
def climb (robot : Robot α) : Nat → String → Nat
  | 0, _ => 0
  | fuel + 1, link =>
      match robot.jointAbove? link with
      | none => 0
      | some joint => robot.climb fuel joint.parent + 1

-- No way up is longer than there are joints.
def depth (robot : Robot α) (link : String) : Nat :=
  robot.climb robot.joints.length link

variable {robot : Robot α} {pairs : List (String × String)} {root link : String} {n : Nat}

theorem climb_of_below (hpairs : pairs.Perm robot.pairs)
    (hsingle : (robot.joints.map Joint.child).Nodup) (hroot : (robot.kinship pairs).Parentless root)
    (h : (robot.kinship pairs).Below root n link) {fuel : Nat} (hfuel : n ≤ fuel) :
    robot.climb fuel link = n := by
  induction h generalizing fuel with
  | here =>
      have hnone : robot.jointAbove? root = none := by
        simpa [jointAbove?] using (kinship_parentless_iff hpairs).mp hroot
      cases fuel with
      | zero => rfl
      | succ fuel => simp [climb, hnone]
  | @step n parent child _ hh ih =>
      obtain ⟨fuel, rfl⟩ := Nat.exists_eq_add_of_le' (Nat.le_of_add_left_le hfuel)
      rw [kinship_holds hpairs] at hh
      obtain ⟨joint, hm, rfl, hchild⟩ := hh
      have habove := (jointAbove?_eq_some_iff hsingle).mpr ⟨hm, hchild⟩
      simp [climb, habove, ih (Nat.le_of_add_le_add_right hfuel)]

theorem depth_of_below (hpairs : pairs.Perm robot.pairs) (tree : (robot.kinship pairs).Tree root)
    (h : (robot.kinship pairs).Below root n link) : robot.depth link = n := by
  have hsingle := (map_fst_perm hpairs).nodup_iff.mp tree.single
  have hlt := h.depth_lt tree.single tree.declared tree.root_mem tree.parentless
  have hlength : pairs.length = robot.joints.length := by
    simpa [Robot.pairs] using hpairs.length_eq
  have hcount : pairs.length + 1 = (robot.kinship pairs).links.length := tree.length_pairs
  exact climb_of_below hpairs hsingle tree.parentless h (by omega)

end Linkage.Description.Robot
