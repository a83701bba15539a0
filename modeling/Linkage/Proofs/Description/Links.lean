import Linkage.Proofs.Description.Elements

namespace Linkage.Description

open Markup

-- What is made of an element for a link: its frames are oriented, and then what it may hold is put
-- in order.
def ReadsLink (element : Element) (link : Link Float) : Prop :=
  ∃ counts turned outer node, orient counts element = .ok turned ∧
    Node.ofElement? outer (arrangeLink turned) = some node ∧ readLink node = .ok link

namespace ReadsLink

variable {element : Element} {link : Link Float}

-- A link has the inertial data that its own element holds, once at most.
theorem forall₂_inertial (h : ReadsLink element link) :
    List.Forall₂ (Reads readInertial) (childrenNamed element ["inertial"]) link.inertial.toList := by
  obtain ⟨counts, turned, outer, node, hturned, hnode, hread⟩ := h
  simp only [readLink, Reading.bind_eq_ok_iff, Reading.pure_eq_ok_iff] at hread
  obtain ⟨filled, hfilled, name, -, rfl⟩ := hread
  have horiented : List.Forall₂ (fun e t => orient counts e = .ok t) (arrangeLink element).children
      (arrangeLink turned).children := by
    rw [children_arrangeLink, children_arrangeLink]
    exact List.rel_append (orient_childrenNamed hturned _) (orient_childrenNamed hturned _)
  have hwhole := Form.isWhole_of_readAll hfilled
  have hvalues := Form.readAll_once .inertial rfl hfilled
  have hnested := Form.forall₂_nested rfl (fun _ _ _ => Reading.throw_ne_ok) hwhole hvalues
  have hreads := forall₂_reads_children horiented hnode hwhole hnested
  rwa [← filter_children_arrangeLink]

-- A link whose name is written as an attribute without a qualifier goes by that name.
theorem name_eq (h : ReadsLink element link) (hbase : element.name.base ≠ "origin") {name : String}
    (hplain : element.plainAttribute? "name" = some name) : link.name = name := by
  obtain ⟨counts, turned, outer, node, hturned, hnode, hread⟩ := h
  simp only [readLink, Reading.bind_eq_ok_iff, Reading.pure_eq_ok_iff,
    Form.require_eq_ok_iff] at hread
  obtain ⟨filled, hfilled, found, hfound, rfl⟩ := hread
  have hturnedPlain : (arrangeLink turned).plainAttribute? "name" = some name := by
    rw [← hplain, Element.plainAttribute?, Element.plainAttribute?,
      ← orient_attributes hturned hbase]
    rfl
  have hfield := Node.mem_fields_of_plainAttribute? hnode hturnedPlain (by decide) (by decide)
  have hpart : Part.flat "name" name ∈
      node.parts.filter fun part => LinkField.form.fieldOf? part == some .name := by
    refine List.mem_filter.mpr ⟨List.mem_append_left _ ?_, rfl⟩
    exact List.mem_map.mpr ⟨_, hfield, rfl⟩
  have hvalues := Form.readAll_once .name rfl hfilled
  obtain ⟨value, hm, hvalue⟩ := exists_of_forall₂ hvalues hpart
  rw [hfound, Option.toList_some, List.mem_singleton] at hm
  cases hvalue
  exact hm.symm

end ReadsLink

-- The links of an accepted description are read of its elements for links, one of each.
theorem forall₂_readsLink {found : Element} {robot : Robot Float}
    (h : orientDocument found >>= readRobot = .ok robot) :
    List.Forall₂ ReadsLink (childrenNamed found ["link"]) robot.links := by
  obtain ⟨turned, hturned, hrobot⟩ := Reading.bind_eq_ok_iff.mp h
  obtain ⟨outer, hlinks, -⟩ := readRobot_eq_ok hrobot
  rw [List.forall₂_map_left_iff] at hlinks
  refine (forall₂_comp (orient_childrenNamed hturned ["link"]) hlinks).imp ?_
  rintro e link ⟨t, ht, node, hnode, hread⟩
  exact ⟨_, t, outer, node, ht, hnode, hread⟩

end Linkage.Description
