import Mathlib.Data.List.Sort
import Mathlib.Data.List.SplitBy
import Mathlib.Data.Nat.Basic
import Mathlib.Tactic.Common

namespace Linkage.Lineage

variable {β : Type} [LinearOrder β] {depth otherDepth : β → Nat} {names other : List β}

-- What comes one after the other at one depth, and each of these runs sorted.
def sortedRuns (depth : β → Nat) (names : List β) : List (List β) :=
  (names.splitBy fun first second => depth first == depth second).map
    (·.mergeSort (· ≤ ·))

def layer (depth : β → Nat) (names : List β) (d : Nat) : List β :=
  names.filter (depth · == d)

omit [LinearOrder β] in
theorem filter_append_filter (hsorted : names.Pairwise (depth · ≤ depth ·)) (n : Nat) :
    names.filter (depth · < n) ++ names.filter (n ≤ depth ·) = names := by
  induction names with
  | nil => rfl
  | cons name rest ih =>
      obtain ⟨hname, hrest⟩ := List.pairwise_cons.mp hsorted
      by_cases hlt : depth name < n
      · simp [hlt, Nat.not_le.mpr hlt, ih hrest]
      · have hle : n ≤ depth name := Nat.le_of_not_lt hlt
        have hnone : rest.filter (depth · < n) = [] := by
          rw [List.filter_eq_nil_iff]
          intro below hm
          have hbelow := hname below hm
          simp only [decide_eq_true_eq]
          omega
        have hall : rest.filter (n ≤ depth ·) = rest := by
          rw [List.filter_eq_self]
          intro below hm
          have hbelow := hname below hm
          simp only [decide_eq_true_eq]
          omega
        simp [hlt, hle, hnone, hall]

omit [LinearOrder β] in
-- What comes by depth is its layers one after the other.
theorem flatten_layers {n : Nat} (hsorted : names.Pairwise (depth · ≤ depth ·))
    (hlt : ∀ name ∈ names, depth name < n) :
    ((List.range n).map (layer depth names)).flatten = names := by
  induction n generalizing names with
  | zero =>
      cases names with
      | nil => rfl
      | cons name rest => exact absurd (hlt name List.mem_cons_self) (Nat.not_lt_zero _)
  | succ n ih =>
      have hbelow : ∀ name ∈ names.filter (depth · < n), depth name < n := by
        intro name hm
        simpa using (List.mem_filter.mp hm).2
      have hlower := ih (hsorted.filter _) hbelow
      have hlayers : (List.range n).map (layer depth (names.filter (depth · < n))) =
          (List.range n).map (layer depth names) := by
        apply List.map_congr_left
        intro d hd
        rw [List.mem_range] at hd
        rw [layer, layer, List.filter_filter]
        apply List.filter_congr
        intro name _
        by_cases hname : depth name = d
        · simp [hname, hd]
        · simp [hname]
      have hlast : layer depth names n = names.filter (n ≤ depth ·) := by
        apply List.filter_congr
        intro name hm
        have hname := hlt name hm
        rw [Bool.eq_iff_iff, beq_iff_eq, decide_eq_true_eq]
        omega
      rw [hlayers] at hlower
      rw [List.range_succ, List.map_append, List.flatten_append, hlower, List.map_singleton,
        List.flatten_singleton, hlast, filter_append_filter hsorted]

omit [LinearOrder β] in
theorem splitBy_eq_layers {n : Nat} (hsorted : names.Pairwise (depth · ≤ depth ·))
    (hlt : ∀ name ∈ names, depth name < n) :
    names.splitBy (fun first second => depth first == depth second) =
      ((List.range n).map (layer depth names)).filter (!·.isEmpty) := by
  have hflat : (((List.range n).map (layer depth names)).filter (!·.isEmpty)).flatten = names := by
    rw [List.flatten_filter_not_isEmpty, flatten_layers hsorted hlt]
  have happart : ((List.range n).map (layer depth names)).Pairwise
      fun upper lower => ∀ first ∈ upper, ∀ second ∈ lower, depth first ≠ depth second := by
    rw [List.pairwise_map]
    refine List.pairwise_lt_range.imp ?_
    intro d e hde first hfirst second hsecond
    have hd : depth first = d := by simpa using (List.mem_filter.mp hfirst).2
    have he : depth second = e := by simpa using (List.mem_filter.mp hsecond).2
    omega
  have hnonempty : ∀ run ∈ ((List.range n).map (layer depth names)).filter (!·.isEmpty),
      run ≠ [] := by
    intro run hm
    simpa using (List.mem_filter.mp hm).2
  conv_lhs => rw [← hflat]
  apply List.splitBy_flatten
  · exact fun hnil => hnonempty [] hnil rfl
  · intro run hm
    obtain ⟨d, -, rfl⟩ := List.mem_map.mp (List.mem_filter.mp hm).1
    refine (List.pairwise_of_forall_mem_list ?_).isChain
    intro first hfirst second hsecond
    have hd : depth first = d := by simpa using (List.mem_filter.mp hfirst).2
    have he : depth second = d := by simpa using (List.mem_filter.mp hsecond).2
    simp [hd, he]
  · refine (happart.filter _).isChain.imp_of_mem_imp ?_
    intro upper lower hupper hlower hne
    refine ⟨hnonempty upper hupper, hnonempty lower hlower, ?_⟩
    simpa using hne _ (List.getLast_mem _) _ (List.head_mem _)

omit [LinearOrder β] in
theorem exists_depth_lt (depth : β → Nat) (names : List β) :
    ∃ n, ∀ name ∈ names, depth name < n := by
  induction names with
  | nil => exact ⟨0, by simp⟩
  | cons name rest ih =>
      obtain ⟨n, hn⟩ := ih
      refine ⟨max (depth name + 1) n, ?_⟩
      intro below hm
      rcases List.mem_cons.mp hm with rfl | hm
      · omega
      · have hbelow := hn below hm
        omega

-- Two orders of the same names by depth differ within the runs only.
theorem sortedRuns_of_perm (hperm : names.Perm other)
    (hsame : ∀ name ∈ names, depth name = otherDepth name)
    (hsorted : names.Pairwise (depth · ≤ depth ·))
    (hother : other.Pairwise (otherDepth · ≤ otherDepth ·)) :
    sortedRuns depth names = sortedRuns otherDepth other := by
  obtain ⟨n, hn⟩ := exists_depth_lt depth names
  have hn' : ∀ name ∈ other, otherDepth name < n := by
    intro name hm
    have hm := hperm.mem_iff.mpr hm
    rw [← hsame name hm]
    exact hn name hm
  have hlayer : ∀ d, (layer depth names d).Perm (layer otherDepth other d) := by
    intro d
    refine List.Perm.trans (List.Perm.of_eq ?_) (hperm.filter _)
    apply List.filter_congr
    intro name hm
    rw [hsame name hm]
  have hempty : (fun d => !(layer depth names d).isEmpty) =
      fun d => !(layer otherDepth other d).isEmpty := by
    funext d
    rw [(hlayer d).isEmpty_eq]
  simp only [sortedRuns, splitBy_eq_layers hsorted hn, splitBy_eq_layers hother hn',
    List.filter_map, List.map_map, Function.comp_def]
  rw [hempty]
  apply List.map_congr_left
  intro d _
  have hsort := ((List.mergeSort_perm (layer depth names d) (· ≤ ·)).trans (hlayer d)).trans
    (List.mergeSort_perm (layer otherDepth other d) (· ≤ ·)).symm
  exact hsort.eq_of_sortedLE List.sortedLE_mergeSort List.sortedLE_mergeSort

end Linkage.Lineage
