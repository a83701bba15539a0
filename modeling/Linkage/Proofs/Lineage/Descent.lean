import Linkage.Lineage.Kinship
import Mathlib.Data.List.Nodup
import Mathlib.Data.List.Perm.Subperm
import Mathlib.Logic.Relation
import Mathlib.Tactic.Common

namespace Linkage

-- Where no key comes twice, what is found is what is there.
theorem lookup_eq_some_iff_mem {β : Type} {list : List (String × β)}
    (hkeys : (list.map Prod.fst).Nodup) {key : String} {value : β} :
    list.lookup key = some value ↔ (key, value) ∈ list := by
  constructor
  · intro h
    obtain ⟨before, after, he, -⟩ := List.lookup_eq_some_iff.mp h
    simp [he]
  · intro hm
    cases h : list.lookup key with
    | none => simpa using List.lookup_eq_none_iff.mp h _ hm
    | some other =>
        obtain ⟨before, after, he, -⟩ := List.lookup_eq_some_iff.mp h
        have ho : (key, other) ∈ list := by simp [he]
        have hsame := List.inj_on_of_nodup_map hkeys ho hm rfl
        exact congrArg (fun entry => some entry.2) hsame

end Linkage

namespace Linkage.Lineage.Kinship

def Holds (k : Kinship) (parent child : String) : Prop :=
  (child, parent) ∈ k.pairs

-- A link is above another if at least one pair leads down to it.
def Ancestor (k : Kinship) : String → String → Prop :=
  Relation.TransGen k.Holds

-- What is a given number of generations below a link, itself being none below.
inductive Below (k : Kinship) (top : String) : Nat → String → Prop where
  | here : Below k top 0 top
  | step {depth : Nat} {parent child : String} :
      Below k top depth parent → k.Holds parent child → Below k top (depth + 1) child

-- No link is the child of two pairs.
def SingleParents (k : Kinship) : Prop :=
  (k.pairs.map Prod.fst).Nodup

-- Both ends of every pair are declared.
def Declared (k : Kinship) : Prop :=
  ∀ parent child, k.Holds parent child → child ∈ k.links ∧ parent ∈ k.links

def Acyclic (k : Kinship) : Prop :=
  ∀ link, ¬k.Ancestor link link

def Parentless (k : Kinship) (link : String) : Prop :=
  ∀ parent, ¬k.Holds parent link

variable {k : Kinship}

theorem Holds.parent_unique (hsingle : k.SingleParents) {first second child : String}
    (hfirst : k.Holds first child) (hsecond : k.Holds second child) : first = second := by
  have he := List.inj_on_of_nodup_map hsingle hfirst hsecond rfl
  exact congrArg Prod.snd he

theorem parent?_eq_some_iff (hsingle : k.SingleParents) (parent child : String) :
    k.parent? child = some parent ↔ k.Holds parent child :=
  lookup_eq_some_iff_mem hsingle

theorem parent?_eq_none_iff (link : String) : k.parent? link = none ↔ k.Parentless link := by
  simp only [parent?, List.lookup_eq_none_iff, Parentless, Holds]
  constructor
  · intro h parent hm
    simpa using h _ hm
  · rintro h ⟨child, parent⟩ hm
    have hne : child ≠ link := by
      rintro rfl
      exact h parent hm
    simpa using Ne.symm hne

theorem mem_children {parent child : String} : child ∈ k.children parent ↔ k.Holds parent child := by
  simp only [children, List.mem_map, List.mem_filter, beq_iff_eq, Holds]
  constructor
  · rintro ⟨⟨c, p⟩, ⟨hm, rfl⟩, rfl⟩
    exact hm
  · exact fun hm => ⟨(child, parent), ⟨hm, rfl⟩, rfl⟩

theorem mem_roots {link : String} : link ∈ k.roots ↔ link ∈ k.links ∧ k.Parentless link := by
  simp only [roots, List.mem_filter, Option.isNone_iff_eq_none, parent?_eq_none_iff]

namespace Below

theorem congr {other : Kinship} (hholds : k.Holds = other.Holds) {top bottom : String} {n : Nat}
    (h : k.Below top n bottom) : other.Below top n bottom := by
  induction h with
  | here => exact .here
  | step _ hh ih => exact .step ih (hholds ▸ hh)

theorem trans {top middle bottom : String} {m n : Nat} (hupper : k.Below top m middle)
    (hlower : k.Below middle n bottom) : k.Below top (m + n) bottom := by
  induction hlower with
  | here => exact hupper
  | step _ hh ih => exact .step ih hh

theorem split {top bottom : String} {m n : Nat} (h : k.Below top (m + n) bottom) :
    ∃ middle, k.Below top m middle ∧ k.Below middle n bottom := by
  induction n generalizing bottom with
  | zero => exact ⟨bottom, h, .here⟩
  | succ n ih =>
      cases h with
      | step hb hh =>
          obtain ⟨middle, hupper, hlower⟩ := ih hb
          exact ⟨middle, hupper, .step hlower hh⟩

theorem succ_iff {top bottom : String} {n : Nat} :
    k.Below top (n + 1) bottom ↔ ∃ child, k.Holds top child ∧ k.Below child n bottom := by
  constructor
  · intro h
    rw [Nat.add_comm] at h
    obtain ⟨child, hupper, hlower⟩ := h.split
    cases hupper with
    | step hb hh =>
        cases hb
        exact ⟨child, hh, hlower⟩
  · rintro ⟨child, hh, hb⟩
    have h := (Below.step .here hh).trans hb
    rwa [Nat.zero_add, Nat.add_comm] at h

theorem ancestor {top bottom : String} {n : Nat} (h : k.Below top (n + 1) bottom) :
    k.Ancestor top bottom := by
  induction n generalizing bottom with
  | zero =>
      cases h with
      | step hb hh =>
          cases hb
          exact .single hh
  | succ n ih =>
      cases h with
      | step hb hh => exact .tail (ih hb) hh

theorem top_unique (hsingle : k.SingleParents) {first second bottom : String} {n : Nat}
    (hfirst : k.Below first n bottom) (hsecond : k.Below second n bottom) : first = second := by
  induction n generalizing bottom with
  | zero =>
      cases hfirst
      cases hsecond
      rfl
  | succ n ih =>
      cases hfirst with
      | step hb hh =>
          cases hsecond with
          | step hb' hh' =>
              cases hh.parent_unique hsingle hh'
              exact ih hb hb'

-- Nothing leads back to a link without a parent.
theorem eq_zero_of_parentless {top bottom : String} {n : Nat} (hroot : k.Parentless bottom)
    (h : k.Below top n bottom) : n = 0 ∧ top = bottom := by
  cases h with
  | here => exact ⟨rfl, rfl⟩
  | step _ hh => exact absurd hh (hroot _)

theorem depth_unique (hsingle : k.SingleParents) {root bottom : String} {m n : Nat}
    (hroot : k.Parentless root) (hm : k.Below root m bottom) (hn : k.Below root n bottom) :
    m = n := by
  wlog hle : m ≤ n generalizing m n
  · exact (this hn hm (by omega)).symm
  · obtain ⟨d, rfl⟩ := Nat.exists_eq_add_of_le' hle
    obtain ⟨middle, hupper, hlower⟩ := hn.split
    cases hm.top_unique hsingle hlower
    have hzero := (hupper.eq_zero_of_parentless hroot).1
    omega

theorem bottom_mem (hdeclared : k.Declared) {top bottom : String} {n : Nat}
    (h : k.Below top n bottom) (htop : top ∈ k.links) : bottom ∈ k.links := by
  cases h with
  | here => exact htop
  | step _ hh => exact (hdeclared _ _ hh).1

theorem top_mem (hdeclared : k.Declared) {top bottom : String} {n : Nat}
    (h : k.Below top n bottom) (hbottom : bottom ∈ k.links) : top ∈ k.links := by
  induction h with
  | here => exact hbottom
  | step _ hh ih => exact ih (hdeclared _ _ hh).2

end Below

theorem Ancestor.exists_below {top bottom : String} (h : k.Ancestor top bottom) :
    ∃ n, k.Below top (n + 1) bottom := by
  induction h with
  | single hh => exact ⟨0, .step .here hh⟩
  | tail _ hh ih =>
      obtain ⟨n, hb⟩ := ih
      exact ⟨n + 1, .step hb hh⟩

theorem Ancestor.bottom_mem (hdeclared : k.Declared) {top bottom : String}
    (h : k.Ancestor top bottom) : bottom ∈ k.links := by
  cases h with
  | single hh => exact (hdeclared _ _ hh).1
  | tail _ hh => exact (hdeclared _ _ hh).1

-- Among more declared names than there are links, two are the same.
theorem exists_eq_of_mem_links (name : Nat → String) (hmem : ∀ i ≤ k.links.length, name i ∈ k.links) :
    ∃ i j, i < j ∧ j ≤ k.links.length ∧ name i = name j := by
  by_contra hne
  have hinj : ∀ i ≤ k.links.length, ∀ j ≤ k.links.length, name i = name j → i = j := by
    intro i hi j hj he
    rcases Nat.lt_trichotomy i j with h | h | h
    · exact (hne ⟨i, j, h, hj, he⟩).elim
    · exact h
    · exact (hne ⟨j, i, h, hi, he.symm⟩).elim
  have hnodup : ((List.range (k.links.length + 1)).map name).Nodup := by
    apply List.Nodup.map_on _ List.nodup_range
    intro i hi j hj he
    simp only [List.mem_range] at hi hj
    exact hinj i (by omega) j (by omega) he
  have hsubset : (List.range (k.links.length + 1)).map name ⊆ k.links := by
    intro x hx
    obtain ⟨i, hi, rfl⟩ := List.mem_map.mp hx
    exact hmem i (by simp only [List.mem_range] at hi; omega)
  have hlength := (List.subperm_of_subset hnodup hsubset).length_le
  simp only [List.length_map, List.length_range] at hlength
  omega

-- A way down that is at least as long as there are links meets one of them twice.
theorem Below.exists_repeat (hdeclared : k.Declared) {top bottom : String} {n : Nat}
    (hmem : bottom ∈ k.links) (h : k.Below top n bottom) (hlong : k.links.length ≤ n) :
    ∃ link i j, i < j ∧ j ≤ k.links.length ∧
      k.Below top (n - i) link ∧ k.Below link i bottom ∧
      k.Below top (n - j) link ∧ k.Below link j bottom := by
  have hway : ∀ i, ∃ link, i ≤ n → k.Below top (n - i) link ∧ k.Below link i bottom := by
    intro i
    by_cases hi : i ≤ n
    · have hsum : n - i + i = n := by omega
      obtain ⟨link, hupper, hlower⟩ := Below.split (hsum ▸ h)
      exact ⟨link, fun _ => ⟨hupper, hlower⟩⟩
    · exact ⟨bottom, fun hle => absurd hle hi⟩
  choose name hname using hway
  obtain ⟨i, j, hij, hj, he⟩ := exists_eq_of_mem_links name fun i hi =>
    (hname i (by omega)).2.top_mem hdeclared hmem
  obtain ⟨hupper, hlower⟩ := hname i (by omega)
  obtain ⟨hupper', hlower'⟩ := hname j (by omega)
  exact ⟨name i, i, j, hij, hj, hupper, hlower, he ▸ hupper', he ▸ hlower'⟩

theorem Below.depth_lt (hsingle : k.SingleParents) (hdeclared : k.Declared) {root bottom : String}
    {n : Nat} (hmem : root ∈ k.links) (hroot : k.Parentless root) (h : k.Below root n bottom) :
    n < k.links.length := by
  by_contra hlong
  obtain ⟨link, i, j, hij, hj, hi, -, hj', -⟩ :=
    h.exists_repeat hdeclared (h.bottom_mem hdeclared hmem) (by omega)
  have he := hi.depth_unique hsingle hroot hj'
  omega

-- What lies between two meetings of one link can be left out, so the way back to a link need not
-- be longer than there are links.
theorem Ancestor.exists_short (hdeclared : k.Declared) {top bottom : String}
    (h : k.Ancestor top bottom) : ∃ n < k.links.length, k.Below top (n + 1) bottom := by
  obtain ⟨n, hn⟩ := h.exists_below
  induction n using Nat.strongRecOn with
  | ind n ih =>
      by_cases hshort : n < k.links.length
      · exact ⟨n, hshort, hn⟩
      · obtain ⟨link, i, j, hij, hj, -, hlower, hupper, -⟩ :=
          hn.exists_repeat hdeclared (h.bottom_mem hdeclared) (by omega)
        have hcut := hupper.trans hlower
        have hsum : n + 1 - j + i = (n - j + i) + 1 := by omega
        exact ih (n - j + i) (by omega) (hsum ▸ hcut)

-- Where nothing is above itself, going up from a link comes to one without a parent.
theorem exists_parentless_above (hsingle : k.SingleParents) (hdeclared : k.Declared)
    (hacyclic : k.Acyclic) {link : String} (hmem : link ∈ k.links) :
    ∃ root n, k.Parentless root ∧ k.Below root n link := by
  by_contra hnone
  have hup : ∀ n, ∃ top, k.Below top n link := by
    intro n
    induction n with
    | zero => exact ⟨link, .here⟩
    | succ n ih =>
        obtain ⟨top, hb⟩ := ih
        have hparent : ∃ parent, k.Holds parent top := by
          by_contra hno
          exact hnone ⟨top, n, fun parent hh => hno ⟨parent, hh⟩, hb⟩
        obtain ⟨parent, hh⟩ := hparent
        exact ⟨parent, Below.succ_iff.mpr ⟨top, hh, hb⟩⟩
  obtain ⟨top, htop⟩ := hup k.links.length
  obtain ⟨again, i, j, hij, hj, -, hi, -, hj'⟩ := htop.exists_repeat hdeclared hmem (Nat.le_refl _)
  have hsum : (j - i - 1) + 1 + i = j := by omega
  obtain ⟨middle, hupper, hlower⟩ := Below.split (hsum ▸ hj')
  cases hi.top_unique hsingle hlower
  exact hacyclic _ hupper.ancestor

end Linkage.Lineage.Kinship
