import Linkage.Proofs.Lineage.Order
import Mathlib.Data.List.Chain
import Mathlib.Data.List.DropRight

namespace Linkage.Lineage

-- The links on the way from one down to another, both of them included.
inductive Route (holds : String → String → Prop) (top : String) : List String → String → Prop where
  | here : Route holds top [top] top
  | step {way : List String} {parent child : String} :
      Route holds top way parent → holds parent child → Route holds top (way ++ [child]) child

-- What ends a list and consists of accepted members only ends what is taken from its end.
theorem suffix_rtakeWhile {α : Type} {p : α → Bool} {list other : List α} (hsuffix : other <:+ list)
    (hall : ∀ member ∈ other, p member = true) : other <:+ list.rtakeWhile p := by
  induction list using List.reverseRecOn generalizing other with
  | nil =>
      rw [List.rtakeWhile_nil]
      exact hsuffix
  | append_singleton list last ih =>
      rcases List.suffix_concat_iff.mp hsuffix with rfl | ⟨upper, rfl, hupper⟩
      · exact List.nil_suffix
      · have hlast : p last = true := hall last (by simp)
        have hrest := ih hupper fun member hm => hall member (List.mem_append_left _ hm)
        rw [List.rtakeWhile_concat_pos _ _ _ hlast]
        exact List.suffix_concat_iff.mpr (.inr ⟨upper, rfl, hrest⟩)

namespace Route

variable {holds : String → String → Prop} {top bottom : String} {way : List String}

theorem getLast?_eq (h : Route holds top way bottom) : way.getLast? = some bottom := by
  cases h with
  | here => rfl
  | step _ _ => simp

theorem rtakeWhile_eq_nil {p : String → Bool} (h : Route holds top way bottom)
    (hbottom : p bottom = false) : way.rtakeWhile p = [] := by
  rw [List.rtakeWhile_eq_nil_iff]
  intro hne
  have hlast := h.getLast?_eq
  rw [List.getLast?_eq_some_getLast hne, Option.some.injEq] at hlast
  simp [hlast, hbottom]

theorem head?_eq (h : Route holds top way bottom) : way.head? = some top := by
  induction h with
  | here => rfl
  | step _ _ ih => simp [ih]

theorem isChain (h : Route holds top way bottom) : way.IsChain holds := by
  induction h with
  | here => exact .singleton top
  | @step way parent child h hh ih =>
      refine ih.append (.singleton child) ?_
      intro last hlast next hnext
      rw [h.getLast?_eq] at hlast
      cases hlast
      cases hnext
      exact hh

theorem above_or_eq (h : Route holds top way bottom) {link : String} (hm : link ∈ way) :
    Relation.TransGen holds link bottom ∨ link = bottom := by
  induction h with
  | here => exact .inr (List.mem_singleton.mp hm)
  | step _ hh ih =>
      rcases List.mem_append.mp hm with hm | hm
      · rcases ih hm with habove | rfl
        · exact .inl (.tail habove hh)
        · exact .inl (.single hh)
      · exact .inr (List.mem_singleton.mp hm)

-- What comes earlier on the way is further up.
theorem pairwise (h : Route holds top way bottom) : way.Pairwise (Relation.TransGen holds) := by
  induction h with
  | here => exact List.pairwise_singleton _ top
  | @step way parent child h hh ih =>
      rw [List.pairwise_append]
      refine ⟨ih, List.pairwise_singleton _ child, ?_⟩
      intro link hm other ho
      cases List.mem_singleton.mp ho
      rcases h.above_or_eq hm with habove | rfl
      · exact .tail habove hh
      · exact .single hh

theorem nodup (h : Route holds top way bottom) (hacyclic : ∀ link, ¬Relation.TransGen holds link link) :
    way.Nodup := by
  refine h.pairwise.imp ?_
  rintro first second habove rfl
  exact hacyclic first habove

end Route

namespace Kinship

variable {k : Kinship}

theorem Below.exists_route {top bottom : String} {n : Nat} (h : k.Below top n bottom) :
    ∃ way, Route k.Holds top way bottom := by
  induction h with
  | here => exact ⟨[top], .here⟩
  | step _ hh ih =>
      obtain ⟨way, hway⟩ := ih
      exact ⟨_, .step hway hh⟩

-- Going up from a link there is no choice, and nothing leads further up than to the root.
theorem Tree.route_unique {root bottom : String} (tree : k.Tree root) {way other : List String}
    (h : Route k.Holds root way bottom) (hother : Route k.Holds root other bottom) : way = other := by
  induction h generalizing other with
  | here =>
      cases hother with
      | here => rfl
      | step _ hh => exact absurd hh (tree.parentless _)
  | step _ hh ih =>
      cases hother with
      | here => exact absurd hh (tree.parentless _)
      | step hother hh' =>
          cases hh.parent_unique tree.single hh'
          rw [ih hother]

theorem Tree.mem_route {root bottom : String} (tree : k.Tree root) {way : List String}
    (h : Route k.Holds root way bottom) {above : String} (habove : k.Ancestor above bottom) :
    above ∈ way := by
  induction h with
  | here =>
      cases habove with
      | single hh => exact absurd hh (tree.parentless _)
      | tail _ hh => exact absurd hh (tree.parentless _)
  | step h hh ih =>
      apply List.mem_append_left
      cases habove with
      | single hh' =>
          cases hh.parent_unique tree.single hh'
          exact List.mem_of_getLast? h.getLast?_eq
      | tail habove hh' =>
          cases hh.parent_unique tree.single hh'
          exact ih habove

-- A link on the way that has a parent comes right after it.
theorem Tree.cons_suffix_route {root bottom : String} (tree : k.Tree root) {way : List String}
    (h : Route k.Holds root way bottom) {parent link : String} {rest : List String}
    (hsuffix : link :: rest <:+ way) (hh : k.Holds parent link) : parent :: link :: rest <:+ way := by
  obtain ⟨upper, rfl⟩ := hsuffix
  rcases List.eq_nil_or_concat' upper with rfl | ⟨upper, last, rfl⟩
  · have hroot : some link = some root := h.head?_eq
    cases hroot
    exact absurd hh (tree.parentless parent)
  · have hchain := h.isChain
    rw [List.append_assoc, List.singleton_append] at hchain
    have hlast : k.Holds last link := (List.isChain_cons_cons.mp hchain.right_of_append).1
    cases hh.parent_unique tree.single hlast
    exact ⟨upper, by simp⟩

end Kinship

end Linkage.Lineage
