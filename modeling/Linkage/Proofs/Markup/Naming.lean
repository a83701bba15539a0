import Linkage.Markup.Node
import Mathlib.Data.List.TakeWhile

namespace Linkage.Markup

-- What stands after the last colon.
def afterColons (text : List Char) : List Char :=
  (text.reverse.takeWhile (· != ':')).reverse

theorem afterColons_of_notMem {text : List Char} (h : ':' ∉ text) : afterColons text = text := by
  have hall : text.reverse.takeWhile (· != ':') = text.reverse := by
    rw [List.takeWhile_eq_self_iff]
    intro c hc
    have hne : c ≠ ':' := fun he => h (he ▸ List.mem_reverse.mp hc)
    simpa using hne
  rw [afterColons, hall, List.reverse_reverse]

theorem afterColons_append (before after : List Char) :
    afterColons (before ++ ':' :: after) = afterColons after := by
  have hr : (before ++ ':' :: after).reverse = after.reverse ++ ':' :: before.reverse := by simp
  unfold afterColons
  rw [hr, List.takeWhile_append]
  split
  · rename_i hlen
    have hall := (List.takeWhile_prefix (· != ':')).eq_of_length hlen
    simp [hall]
  · rfl

theorem cut?_colon_none {text : List Char} (h : cut? [':'] text = none) : ':' ∉ text := by
  induction text with
  | nil => simp
  | cons c rest ih =>
      by_cases hc : ':' = c
      · subst hc
        simp [cut?, after?] at h
      · simp only [cut?, after?, hc, if_false, Option.map_eq_none_iff] at h
        simp [hc, ih h]

theorem cut?_colon_some {text before rest : List Char} (h : cut? [':'] text = some (before, rest)) :
    text = before ++ ':' :: rest := by
  induction text generalizing before with
  | nil => simp [cut?] at h
  | cons c tail ih =>
      by_cases hc : ':' = c
      · subst hc
        simp only [cut?, after?, if_true, Option.some.injEq, Prod.mk.injEq] at h
        obtain ⟨rfl, rfl⟩ := h
        rfl
      · simp only [cut?, after?, hc, if_false, Option.map_eq_some_iff, Prod.mk.injEq] at h
        obtain ⟨⟨found, left⟩, hcut, rfl, rfl⟩ := h
        rw [ih hcut, List.cons_append]

-- A name has one colon at most, so that its base is what stands after its colons.
theorem Name.ofText?_base {text : String} {name : Name} (h : Name.ofText? text = some name) :
    name.base.toList = afterColons text.toList := by
  unfold Name.ofText? at h
  cases htext : text.toList with
  | nil => simp [htext] at h
  | cons c rest =>
      have hstart : isNameStart c = true := by
        by_contra hc
        simp [htext, hc] at h
      have hc : ':' ≠ c := by
        rintro rfl
        exact absurd hstart (by decide)
      cases hcut : cut? [':'] rest with
      | none =>
          have hrest := cut?_colon_none hcut
          rw [afterColons_of_notMem (by simp [hc, hrest]), ← htext]
          simp only [htext, hcut, Option.ite_none_right_eq_some, Option.some.injEq] at h
          rw [← h.2]
      | some found =>
          obtain ⟨qualifier, base⟩ := found
          simp only [htext, hcut, Option.ite_none_right_eq_some, Option.ite_none_left_eq_some,
            Bool.or_eq_true, List.contains_iff_mem, not_or, Option.some.injEq] at h
          obtain ⟨-, ⟨-, hnot⟩, rfl⟩ := h
          rw [cut?_colon_some hcut, ← List.cons_append, afterColons_append,
            afterColons_of_notMem hnot, String.toList_ofList]

-- The name that an element goes by. A name can be taken with more colons than one, and then what
-- stands before the last does not count.
def Name.localPart (name : Name) : String :=
  String.ofList (afterColons name.base.toList)

theorem Name.localPart_of_notMem {name : Name} (h : ':' ∉ name.base.toList) :
    name.localPart = name.base := by
  rw [localPart, afterColons_of_notMem h, String.ofList_toList]

namespace Surroundings

theorem spellTag?_afterColons {s : Surroundings} {name : Name} {spelled : String}
    (h : s.spellTag? name = some spelled) :
    afterColons spelled.toList = afterColons name.base.toList := by
  simp only [spellTag?, Option.bind_eq_bind, Option.bind_eq_some_iff] at h
  obtain ⟨vocabulary, -, h⟩ := h
  split at h
  · cases h
    rfl
  · cases vocabulary with
    | none =>
        cases h
        rfl
    | some v =>
        obtain ⟨qualifier, -, rfl⟩ := Option.map_eq_some_iff.mp h
        have hlist : (qualifier ++ ":" ++ name.base).toList =
            qualifier.toList ++ ':' :: name.base.toList := by simp
        rw [hlist, afterColons_append]

-- A tag that can be read is read under its local part.
theorem tag?_base {outer inner : Surroundings} {name : Name} {attributes : List Attribute}
    {base : String} {fields : List (String × String)}
    (h : outer.tag? name attributes = some (base, fields, inner)) : base = name.localPart := by
  simp only [tag?, Option.bind_eq_bind, Option.bind_eq_some_iff] at h
  obtain ⟨spelled, hspelled, tag, htag, named, -, h⟩ := h
  split at h
  · cases h
    rw [Name.localPart, ← spellTag?_afterColons hspelled, ← Name.ofText?_base htag,
      String.ofList_toList]
  · simp at h

end Surroundings

end Linkage.Markup
