import Linkage.Description.Form
import Linkage.Proofs.Markup.Children

namespace Linkage.Description

open Markup

namespace Reading

variable {γ δ : Type} {fault : Fault}

@[simp]
theorem throw_ne_ok {value : γ} : (throw fault : Reading γ) ≠ .ok value := by
  simp [throw, throwThe, MonadExceptOf.throw]

@[simp]
theorem bind_eq_ok_iff {first : Reading γ} {next : γ → Reading δ} {value : δ} :
    first >>= next = .ok value ↔ ∃ x, first = .ok x ∧ next x = .ok value := by
  cases first with
  | error fault => simp [bind, Except.bind]
  | ok x => simp [bind, Except.bind]

@[simp]
theorem pure_eq_ok_iff {found value : γ} : (pure found : Reading γ) = .ok value ↔ found = value := by
  simp [pure, Except.pure]

end Reading

variable {ι : Type} [DecidableEq ι] {β : ι → Type}

theorem Filled.set_same (filled : Filled β) (field : ι) (value : β field) :
    filled.set field value field = some value := by
  simp [set]

theorem Filled.set_of_ne (filled : Filled β) {field other : ι} (value : β field)
    (hne : field ≠ other) : filled.set field value other = filled other := by
  simp [set, hne]

namespace Form

-- The field that a part is read for.
def fieldOf? (form : Form ι β) (part : Part) : Option ι :=
  part.label?.bind form.field?

-- The values of a field so far with one more. Only fields that may be there many times have more
-- than one.
def gather (form : Form ι β) (field : ι) (before : Option (β field)) (value : β field) :
    Option (β field) :=
  match before, form.join? field with
  | none, _ => some value
  | some first, none => some first
  | some first, some join => some (join first value)

variable {form : Form ι β}

-- A part is passed over or read for a field, which has to be blank if it may be there once only.
theorem fill_cons {last : Option ι} {filled result : Filled β} {part : Part} {rest : List Part}
    (h : form.fill last filled (part :: rest) = .ok result) :
    (form.fieldOf? part = none ∧ part.isReadable = true ∧ form.fill none filled rest = .ok result) ∨
    ∃ field value gathered, form.fieldOf? part = some field ∧ form.read field part = .ok value ∧
      form.gather field (filled field) value = some gathered ∧
      (form.join? field = none → filled field = none) ∧
      form.fill (some field) (filled.set field gathered) rest = .ok result := by
  rw [fill] at h
  cases hfield : part.label?.bind form.field? with
  | none =>
      simp only [hfield] at h
      by_cases hreadable : part.isReadable = true
      · exact .inl ⟨hfield, hreadable, by simpa only [hreadable, if_true] using h⟩
      · simp [hreadable] at h
  | some field =>
      simp only [hfield] at h
      cases hfilled : filled field with
      | none =>
          simp only [hfilled, Reading.bind_eq_ok_iff] at h
          obtain ⟨value, hread, h⟩ := h
          exact .inr ⟨field, value, value, hfield, hread, by simp only [gather, hfilled],
            fun _ => hfilled, h⟩
      | some before =>
          simp only [hfilled] at h
          cases hjoin : form.join? field with
          | none => simp [hjoin] at h
          | some join =>
              by_cases hlast : last = some field
              · simp only [hjoin, hlast, if_true, Reading.bind_eq_ok_iff] at h
                obtain ⟨value, hread, h⟩ := h
                exact .inr ⟨field, value, join before value, hfield, hread,
                  by simp only [gather, hfilled, hjoin], by simp [hjoin], h⟩
              · simp [hjoin, hlast] at h

-- What a field holds in the end is what was read of its parts, in their order. If it may be there
-- once only, there is no second part.
theorem fill_values (field : ι) {last : Option ι} {filled result : Filled β} {parts : List Part}
    (h : form.fill last filled parts = .ok result) :
    ∃ values, List.Forall₂ (fun part value => form.read field part = .ok value)
        (parts.filter fun part => form.fieldOf? part == some field) values ∧
      result field = values.foldl (form.gather field) (filled field) ∧
      (form.join? field = none → (filled field).toList.length + values.length ≤ 1) := by
  induction parts generalizing last filled with
  | nil =>
      cases h
      exact ⟨[], .nil, rfl, fun _ => Option.length_toList_le⟩
  | cons part rest ih =>
      rcases fill_cons h with
        ⟨hfield, -, h⟩ | ⟨other, value, gathered, hfield, hread, hgather, hblank, h⟩
      · obtain ⟨values, hvalues, he, honce⟩ := ih h
        exact ⟨values, by simpa [hfield] using hvalues, he, honce⟩
      · obtain ⟨values, hvalues, he, honce⟩ := ih h
        by_cases hsame : other = field
        · subst hsame
          refine ⟨value :: values, ?_, ?_, ?_⟩
          · rw [List.filter_cons_of_pos (by simp [hfield])]
            exact .cons hread hvalues
          · rw [he, filled.set_same, List.foldl_cons, hgather]
          · intro hsingle
            have hrest := honce hsingle
            rw [filled.set_same, Option.toList_some, List.length_singleton] at hrest
            rw [hblank hsingle, Option.toList_none, List.length_nil, List.length_cons]
            omega
        · rw [filled.set_of_ne _ hsame] at he honce
          exact ⟨values, by simpa [hfield, hsame] using hvalues, he, honce⟩

theorem unreadable_notMem_of_fill {last : Option ι} {filled result : Filled β} {parts : List Part}
    (h : form.fill last filled parts = .ok result) : Part.unreadable ∉ parts := by
  induction parts generalizing last filled with
  | nil => simp
  | cons part rest ih =>
      intro hm
      rcases fill_cons h with ⟨-, hreadable, h⟩ | ⟨field, value, gathered, hfield, -, -, -, h⟩
      · rcases List.mem_cons.mp hm with rfl | hm
        · simp [Part.isReadable] at hreadable
        · exact ih h hm
      · rcases List.mem_cons.mp hm with rfl | hm
        · simp [fieldOf?, Part.label?] at hfield
        · exact ih h hm

omit [DecidableEq ι] in
theorem fieldOf?_eq_some_iff {field : ι} (hfield : form.field? (form.label field) = some field)
    (part : Part) : form.fieldOf? part = some field ↔ part.label? = some (form.label field) := by
  rw [fieldOf?, Option.bind_eq_some_iff]
  constructor
  · rintro ⟨label, hlabel, hfound⟩
    have he := List.find?_some hfound
    rw [hlabel, beq_iff_eq.mp he]
  · intro hlabel
    exact ⟨_, hlabel, hfield⟩

omit [DecidableEq ι] in
theorem toList_foldl_gather {field : ι} {values : List (β field)} (hlength : values.length ≤ 1) :
    (values.foldl (form.gather field) none).toList = values := by
  match values, hlength with
  | [], _ => rfl
  | [_], _ => rfl

variable {node : Node} {filled : Filled β}

omit [DecidableEq ι] in
theorem require_eq_ok_iff {field : ι} {value : β field} :
    form.require filled field = .ok value ↔ filled field = some value := by
  rw [require]
  cases filled field with
  | none => simp
  | some found => simp

theorem isWhole_of_readAll (h : form.readAll node = .ok filled) : node.IsWhole := by
  intro hm
  refine unreadable_notMem_of_fill h (List.mem_append_right _ ?_)
  exact List.mem_filterMap.mpr ⟨_, hm, rfl⟩

end Form

theorem parts_of_isWhole {node : Node} (hwhole : node.IsWhole) :
    node.parts = (node.fields.map fun (label, value) => .flat label value) ++
      node.children.map .nested := by
  have hcontent : ∀ content : List (Piece Node), Piece.unreadable ∉ content →
      content.filterMap Piece.part? = (content.filterMap Piece.node?).map .nested := by
    intro content hwhole
    induction content with
    | nil => rfl
    | cons piece rest ih =>
        have hrest := ih fun hm => hwhole (List.mem_cons_of_mem _ hm)
        cases piece with
        | node n => simp [Piece.part?, Piece.node?, hrest]
        | text characters => exact hrest
        | unreadable => exact absurd List.mem_cons_self hwhole
  rw [Node.parts, hcontent _ hwhole, Node.children]

section Fields

variable {form : Form ι β} {node : Node} {filled : Filled β}

-- A field that may be there once only is read of its one part, or is blank without one.
theorem Form.readAll_once (field : ι) (hsingle : form.join? field = none)
    (h : form.readAll node = .ok filled) :
    List.Forall₂ (fun part value => form.read field part = .ok value)
      (node.parts.filter fun part => form.fieldOf? part == some field) (filled field).toList := by
  obtain ⟨values, hvalues, he, honce⟩ := fill_values field h
  have hlength : values.length ≤ 1 := Nat.le_of_add_left_le (honce hsingle)
  rw [he]
  exact (toList_foldl_gather hlength).symm ▸ hvalues

-- The parts of a field that no attribute can fill are the children of its name.
theorem Form.forall₂_nested {field : ι} (hfield : form.field? (form.label field) = some field)
    (hflat : ∀ label text value, form.read field (.flat label text) ≠ .ok value)
    (hwhole : node.IsWhole) {values : List (β field)}
    (hvalues : List.Forall₂ (fun part value => form.read field part = .ok value)
      (node.parts.filter fun part => form.fieldOf? part == some field) values) :
    List.Forall₂ (fun child value => form.read field (.nested child) = .ok value)
      (node.children.filter (·.name == form.label field)) values := by
  have hparts : node.parts.filter (fun part => form.fieldOf? part == some field) =
      (node.children.filter (·.name == form.label field)).map .nested := by
    have hbelongs : ∀ part : Part, (form.fieldOf? part == some field) =
        (part.label? == some (form.label field)) := by
      intro part
      rw [Bool.eq_iff_iff, beq_iff_eq, beq_iff_eq, fieldOf?_eq_some_iff hfield]
    have hnone : (node.fields.map fun (label, value) => Part.flat label value).filter
        (fun part => form.fieldOf? part == some field) = [] := by
      rw [List.eq_nil_iff_forall_not_mem]
      intro part hm
      have hpart : part ∈ node.parts.filter fun part => form.fieldOf? part == some field := by
        rw [Node.parts, List.filter_append]
        exact List.mem_append_left _ hm
      obtain ⟨value, -, hread⟩ := exists_of_forall₂ hvalues hpart
      obtain ⟨⟨label, text⟩, -, rfl⟩ := List.mem_map.mp (List.mem_filter.mp hm).1
      exact hflat label text value hread
    rw [parts_of_isWhole hwhole, List.filter_append, hnone, List.nil_append, List.filter_map]
    simp only [hbelongs, Function.comp_def, Part.label?, Option.some_beq_some]
  rw [hparts, List.forall₂_map_left_iff] at hvalues
  exact hvalues

end Fields

end Linkage.Description
