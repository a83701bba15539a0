import Linkage.Chain
import Mathlib.Data.List.Basic
import Mathlib.Tactic.Common

namespace Linkage.Chain

open Body Space

variable {α : Type} [Scalar α] {chain : Chain α} {q : List α}

-- What the links do at some coordinates, each seen from the one before it.
def stages (chain : Chain α) (q : List α) : List (Pose α) :=
  List.zipWith Segment.transform chain.segments q

-- The product of some poses in their order, after `base`.
def product (base : Pose α) (poses : List (Pose α)) : Pose α :=
  poses.foldl Pose.compose base

omit [Scalar α] in
theorem length_segments : chain.segments.length = chain.length :=
  List.length_map _

theorem length_stages (h : q.length = chain.length) : (chain.stages q).length = chain.length := by
  simp [stages, length_segments, h]

theorem transforms_eq_ok (h : q.length = chain.length) : chain.transforms q = .ok (chain.stages q) := by
  simp [transforms, h, stages]

theorem transforms_eq_error (h : q.length ≠ chain.length) :
    chain.transforms q = .error (.jointCountMismatch chain.length q.length) := by
  simp [transforms, h]

theorem poses_eq_ok (h : q.length = chain.length) :
    chain.poses q = .ok (accumulate .one (chain.stages q)) := by
  rw [poses, transforms_eq_ok h]
  rfl

theorem poses_eq_error (h : q.length ≠ chain.length) :
    chain.poses q = .error (.jointCountMismatch chain.length q.length) := by
  rw [poses, transforms_eq_error h]
  rfl

theorem tipPose_eq_error (h : q.length ≠ chain.length) :
    chain.tipPose q = .error (.jointCountMismatch chain.length q.length) := by
  rw [tipPose, poses_eq_error h]
  rfl

theorem length_accumulate (base : Pose α) (poses : List (Pose α)) :
    (accumulate base poses).length = poses.length := by
  induction poses generalizing base with
  | nil => rfl
  | cons pose rest ih => simp [accumulate, ih]

theorem take_accumulate (base : Pose α) (poses : List (Pose α)) (k : Nat) :
    (accumulate base poses).take k = accumulate base (poses.take k) := by
  induction poses generalizing base k with
  | nil => simp [accumulate]
  | cons pose rest ih =>
      cases k with
      | zero => rfl
      | succ k => simp [accumulate, ih]

-- Each of the accumulated poses is the product of those up to it.
theorem getElem?_accumulate (base : Pose α) (poses : List (Pose α)) {i : Nat} (hi : i < poses.length) :
    (accumulate base poses)[i]? = some (product base (poses.take (i + 1))) := by
  induction poses generalizing base i with
  | nil => simp at hi
  | cons pose rest ih =>
      cases i with
      | zero => simp [accumulate, product]
      | succ i =>
          have hi : i < rest.length := by simpa using hi
          rw [accumulate, List.getElem?_cons_succ, ih _ hi, List.take_succ_cons]
          rfl

theorem tipPose_eq_ok (h : q.length = chain.length) (hne : chain.members ≠ []) :
    ∃ pose, (accumulate .one (chain.stages q)).getLast? = some pose ∧ chain.tipPose q = .ok pose := by
  have hpos : (accumulate .one (chain.stages q)).length ≠ 0 := by
    rw [length_accumulate, length_stages h, length]
    exact fun hzero => hne (List.length_eq_zero_iff.mp hzero)
  cases hlast : (accumulate .one (chain.stages q)).getLast? with
  | none => simp [List.getLast?_eq_none_iff.mp hlast] at hpos
  | some pose =>
      refine ⟨pose, rfl, ?_⟩
      rw [tipPose, poses_eq_ok h]
      simp [Except.map, hlast]

end Linkage.Chain
