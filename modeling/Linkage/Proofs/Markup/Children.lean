import Linkage.Proofs.Markup.Naming
import Mathlib.Data.List.Forall2

namespace Linkage

section Pointwise

variable {α β γ : Type} {R : α → β → Prop} {S : β → γ → Prop}

theorem exists_of_forall₂ {xs : List α} {ys : List β} (h : List.Forall₂ R xs ys) {x : α}
    (hx : x ∈ xs) : ∃ y ∈ ys, R x y := by
  induction h with
  | nil => simp at hx
  | cons hr _ ih =>
      rcases List.mem_cons.mp hx with rfl | hx
      · exact ⟨_, List.mem_cons_self, hr⟩
      · obtain ⟨y, hy, hr⟩ := ih hx
        exact ⟨y, List.mem_cons_of_mem _ hy, hr⟩

theorem forall₂_comp {xs : List α} {ys : List β} {zs : List γ} (hfirst : List.Forall₂ R xs ys)
    (hsecond : List.Forall₂ S ys zs) : List.Forall₂ (fun x z => ∃ y, R x y ∧ S y z) xs zs := by
  induction hfirst generalizing zs with
  | nil =>
      cases hsecond
      exact .nil
  | cons hr _ ih =>
      cases hsecond with
      | cons hs hrest => exact .cons ⟨_, hr, hs⟩ (ih hrest)

theorem forall₂_of_mapM {f : α → Option β} {xs : List α} {ys : List β} (h : xs.mapM f = some ys) :
    List.Forall₂ (fun x y => f x = some y) xs ys := by
  induction xs generalizing ys with
  | nil =>
      cases h
      exact .nil
  | cons x rest ih =>
      simp only [List.mapM_cons, Option.bind_eq_bind, Option.bind_eq_some_iff] at h
      obtain ⟨y, hy, others, hothers, he⟩ := h
      cases he
      exact .cons hy (ih hothers)

end Pointwise

end Linkage

namespace Linkage.Markup

-- Whether an element has a child that goes by a name.
def Element.holds (element : Element) (label : String) : Bool :=
  element.children.any (·.name.localPart == label)

def Piece.node? {ν : Type} : Piece ν → Option ν
  | node n => some n
  | _ => none

namespace Node

def children (node : Node) : List Node :=
  node.content.filterMap Piece.node?

-- A node whose content can be read to its end.
def IsWhole (node : Node) : Prop :=
  Piece.unreadable ∉ node.content

end Node

theorem filterMap_node?_endRun {ν : Type} (run : List Char) :
    (endRun run : List (Piece ν)).filterMap Piece.node? = [] := by
  by_cases hall : run.all isAllowed
  · by_cases hempty : (Text.strip isSpace run).isEmpty
    · simp [endRun, hall, hempty]
    · simp [endRun, hall, hempty, Piece.node?]
  · simp [endRun, hall, Piece.node?]

theorem Attribute.declared?_plain {label value : String} (hne : label ≠ "xmlns") :
    declared? ⟨⟨none, label⟩, value⟩ = none := by
  unfold declared?
  split
  · simp_all
  · simp_all
  · rfl

-- An attribute without a qualifier keeps its name and its value, unless it declares something.
theorem Surroundings.mem_fields_of_tag? {outer inner : Surroundings} {name : Name}
    {attributes : List Attribute} {base label value : String} {fields : List (String × String)}
    (h : outer.tag? name attributes = some (base, fields, inner))
    (hm : ⟨⟨none, label⟩, value⟩ ∈ attributes) (hlabel : Name.ofText? label = some ⟨none, label⟩)
    (hne : label ≠ "xmlns") : (label, value) ∈ fields := by
  simp only [tag?, Option.bind_eq_bind, Option.bind_eq_some_iff] at h
  obtain ⟨spelled, -, tag, -, named, hnamed, h⟩ := h
  obtain ⟨a, ha, he⟩ := exists_of_forall₂ (forall₂_of_mapM hnamed) hm
  simp only [attribute?, spellAttribute?, Scope.ofAttribute?, spell?, hlabel, Option.bind_eq_bind,
    Option.bind_some, Option.pure_def, Option.ite_none_right_eq_some, Option.some.injEq] at he
  obtain ⟨-, rfl⟩ := he
  split at h
  · cases h
    refine List.mem_map.mpr ⟨_, List.mem_filter.mpr ⟨ha, ?_⟩, rfl⟩
    rw [Attribute.declared?_plain hne, Option.isNone_none]
  · simp at h

-- The elements in some content become the nodes of its pieces, each in its place, unless something
-- cannot be read.
theorem Node.forall₂_pieces {s : Surroundings} {run : List Char} {content : List (Content Element)}
    (hwhole : Piece.unreadable ∉ Node.pieces s run content) :
    List.Forall₂ (fun e n => Node.ofElement? s e = some n) (content.filterMap Content.element?)
      ((Node.pieces s run content).filterMap Piece.node?) := by
  induction content generalizing run with
  | nil =>
      rw [Node.pieces, filterMap_node?_endRun]
      exact .nil
  | cons piece rest ih =>
      cases piece with
      | text characters =>
          rw [Node.pieces] at hwhole ⊢
          exact ih hwhole
      | comment characters =>
          rw [Node.pieces] at hwhole ⊢
          split at hwhole
          · rename_i hallowed
            rw [if_pos hallowed]
            exact ih hwhole
          · simp at hwhole
      | instruction body =>
          rw [Node.pieces] at hwhole ⊢
          split at hwhole
          · rename_i hreadable
            rw [if_pos hreadable, List.filterMap_append, filterMap_node?_endRun, List.nil_append]
            exact ih fun hm => hwhole (List.mem_append_right _ hm)
          · simp at hwhole
      | element e =>
          rw [Node.pieces] at hwhole ⊢
          cases he : Node.ofElement? s e with
          | none =>
              simp only [he] at hwhole
              split at hwhole
              · simp at hwhole
              · simp at hwhole
          | some node =>
              simp only [he] at hwhole ⊢
              rw [List.filterMap_append, filterMap_node?_endRun, List.nil_append]
              refine .cons he (ih ?_)
              intro hm
              exact hwhole (List.mem_append_right _ (List.mem_cons_of_mem _ hm))

namespace Node

variable {outer : Surroundings} {element : Element} {node : Node}

theorem ofElement?_eq_some (h : Node.ofElement? outer element = some node) :
    node.name = element.name.localPart ∧
      ∃ inner, node.content = Node.pieces inner [] element.content := by
  obtain ⟨name, attributes, content⟩ := element
  simp only [Node.ofElement?, Option.bind_eq_bind, Option.bind_eq_some_iff] at h
  obtain ⟨⟨base, fields, inner⟩, htag, h⟩ := h
  cases h
  exact ⟨Surroundings.tag?_base htag, inner, rfl⟩

theorem mem_fields_of_plainAttribute? {label value : String}
    (h : Node.ofElement? outer element = some node)
    (hplain : element.plainAttribute? label = some value)
    (hlabel : Name.ofText? label = some ⟨none, label⟩) (hne : label ≠ "xmlns") :
    (label, value) ∈ node.fields := by
  obtain ⟨name, attributes, content⟩ := element
  simp only [Node.ofElement?, Option.bind_eq_bind, Option.bind_eq_some_iff] at h
  obtain ⟨⟨base, fields, inner⟩, htag, h⟩ := h
  cases h
  obtain ⟨⟨written, _⟩, hfound, rfl⟩ := Option.map_eq_some_iff.mp hplain
  have hname : written = ⟨none, label⟩ := by simpa using List.find?_some hfound
  subst hname
  exact Surroundings.mem_fields_of_tag? htag (List.mem_of_find?_eq_some hfound) hlabel hne

theorem ofElement?_name (h : Node.ofElement? outer element = some node) :
    node.name = element.name.localPart :=
  (ofElement?_eq_some h).1

theorem forall₂_children (h : Node.ofElement? outer element = some node) (hwhole : node.IsWhole) :
    ∃ inner, List.Forall₂ (fun e n => Node.ofElement? inner e = some n) element.children
      node.children := by
  obtain ⟨-, inner, hcontent⟩ := ofElement?_eq_some h
  unfold IsWhole at hwhole
  rw [hcontent] at hwhole
  refine ⟨inner, ?_⟩
  rw [children, hcontent]
  exact forall₂_pieces hwhole

end Node

end Linkage.Markup
