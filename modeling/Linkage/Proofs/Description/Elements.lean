import Linkage.Description.Document
import Linkage.Proofs.Description.Filling

namespace Linkage.Description

open Markup

variable {γ : Type}

-- What a way of reading nodes makes of an element: its frames are oriented first.
def Reads (read : Node → Reading γ) (element : Element) (value : γ) : Prop :=
  ∃ counts turned outer node, orient counts element = .ok turned ∧
    Node.ofElement? outer turned = some node ∧ read node = .ok value

section Orientation

variable {counts : Bool}

theorem forall₂_orientAll {content turned : List (Content Element)}
    (h : orientAll counts content = .ok turned) :
    List.Forall₂ (fun e t => orient counts e = .ok t) (content.filterMap Content.element?)
      (turned.filterMap Content.element?) := by
  induction content generalizing turned with
  | nil =>
      cases h
      exact .nil
  | cons piece rest ih =>
      simp only [orientAll, Reading.bind_eq_ok_iff, Reading.pure_eq_ok_iff] at h
      obtain ⟨first, hfirst, others, hothers, rfl⟩ := h
      have hrest := ih hothers
      cases piece with
      | element e =>
          simp only [orientPiece, Reading.bind_eq_ok_iff, Reading.pure_eq_ok_iff] at hfirst
          obtain ⟨t, ht, rfl⟩ := hfirst
          exact .cons ht hrest
      | text characters =>
          cases hfirst
          exact hrest
      | comment characters =>
          cases hfirst
          exact hrest
      | instruction body =>
          cases hfirst
          exact hrest

variable {element turned : Element}

-- Orienting the frames in an element leaves its name and its children's names as they are.
theorem orient_eq_ok (h : orient counts element = .ok turned) :
    turned.name = element.name ∧
      List.Forall₂ (fun e t => orient counts e = .ok t) element.children turned.children := by
  obtain ⟨name, attributes, content⟩ := element
  rw [orient] at h
  -- both kinds of element go on with their content
  split at h
  all_goals
    simp only [Reading.bind_eq_ok_iff, Reading.pure_eq_ok_iff] at h
    obtain ⟨replaced, -, others, hothers, rfl⟩ := h
    exact ⟨rfl, forall₂_orientAll hothers⟩

theorem orient_attributes (h : orient counts element = .ok turned)
    (hbase : element.name.base ≠ "origin") : turned.attributes = element.attributes := by
  obtain ⟨name, attributes, content⟩ := element
  have hkept : (name.base == "origin") = false := beq_eq_false_iff_ne.mpr hbase
  simp only [orient, hkept, Bool.false_eq_true, if_false, Reading.bind_eq_ok_iff,
    Reading.pure_eq_ok_iff] at h
  obtain ⟨_, rfl, others, -, rfl⟩ := h
  rfl

theorem orient_childrenNamed (h : orient counts element = .ok turned) (names : List String) :
    List.Forall₂ (fun e t => orient counts e = .ok t) (childrenNamed element names)
      (childrenNamed turned names) := by
  refine List.rel_filter ?_ (orient_eq_ok h).2
  intro e t ht
  simp only [(orient_eq_ok ht).1]

end Orientation

theorem filterMap_map_element (elements : List Element) :
    (elements.map Content.element).filterMap Content.element? = elements := by
  simp [List.filterMap_map, Function.comp_def, Content.element?]

theorem children_arrangeLink (link : Element) :
    (arrangeLink link).children =
      childrenNamed link ["visual", "inertial"] ++ childrenNamed link ["collision"] :=
  filterMap_map_element _

theorem children_arrangeRobot (robot : Element) :
    (arrangeRobot robot).children = (childrenNamed robot ["link"]).map arrangeLink ++
      childrenNamed robot ["joint"] ++ childrenNamed robot ["material"] :=
  filterMap_map_element _

-- Of the elements of some kinds, those that go by a name are the elements of that kind.
theorem filter_childrenNamed {kinds : List String} (hkinds : ∀ kind ∈ kinds, ':' ∉ kind.toList)
    (element : Element) (label : String) :
    (childrenNamed element kinds).filter (·.name.localPart == label) =
      if label ∈ kinds then childrenNamed element [label] else [] := by
  have hlocal : ∀ child ∈ childrenNamed element kinds,
      child.name.localPart = child.name.base ∧ child.name.base ∈ kinds := by
    intro child hm
    have hbase : child.name.base ∈ kinds := by simpa [childrenNamed] using (List.mem_filter.mp hm).2
    exact ⟨Name.localPart_of_notMem (hkinds _ hbase), hbase⟩
  split
  · rename_i hlabel
    have hbases : (childrenNamed element kinds).filter (·.name.localPart == label) =
        (childrenNamed element kinds).filter (·.name.base == label) := by
      apply List.filter_congr
      intro child hm
      rw [(hlocal child hm).1]
    rw [hbases, childrenNamed, childrenNamed, List.filter_filter]
    apply List.filter_congr
    intro child _
    by_cases he : child.name.base = label
    · simp [he, hlabel]
    · simp [he]
  · rename_i hlabel
    rw [List.filter_eq_nil_iff]
    intro child hm he
    obtain ⟨hname, hbase⟩ := hlocal child hm
    rw [hname, beq_iff_eq] at he
    exact hlabel (he ▸ hbase)

theorem filter_children_arrangeLink (link : Element) :
    (arrangeLink link).children.filter (·.name.localPart == "inertial") =
      childrenNamed link ["inertial"] := by
  rw [children_arrangeLink, List.filter_append, filter_childrenNamed (by decide),
    filter_childrenNamed (by decide)]
  simp

theorem filter_children_arrangeRobot (robot : Element) (label : String) :
    (arrangeRobot robot).children.filter (·.name.localPart == label) =
      (if label ∈ ["link"] then (childrenNamed robot [label]).map arrangeLink else []) ++
      (if label ∈ ["joint"] then childrenNamed robot [label] else []) ++
      if label ∈ ["material"] then childrenNamed robot [label] else [] := by
  have harranged : ((childrenNamed robot ["link"]).map arrangeLink).filter
      (·.name.localPart == label) =
        if label ∈ ["link"] then (childrenNamed robot [label]).map arrangeLink else [] := by
    have hkinds : ∀ kind ∈ ["link"], ':' ∉ kind.toList := by decide
    have hlinks := congrArg (List.map arrangeLink) (filter_childrenNamed hkinds robot label)
    rw [List.filter_map]
    exact hlinks.trans (apply_ite (List.map arrangeLink) ..)
  rw [children_arrangeRobot, List.filter_append, List.filter_append, harranged,
    filter_childrenNamed (by decide), filter_childrenNamed (by decide)]

section Robot

theorem forall₂_listed {read : Node → Reading γ} {nodes : List Node} {values : List (List γ)}
    (h : List.Forall₂ (fun node value => Part.listed read (.nested node) = .ok value) nodes values) :
    List.Forall₂ (fun node item => read node = .ok item) nodes values.flatten := by
  induction h with
  | nil => exact .nil
  | cons hread _ ih =>
      simp only [Part.listed, Reading.bind_eq_ok_iff, Reading.pure_eq_ok_iff] at hread
      obtain ⟨item, hread, rfl⟩ := hread
      exact .cons hread ih

theorem getD_foldl_append {gather : Option (List γ) → List γ → Option (List γ)}
    (hfirst : ∀ value, gather none value = some value)
    (hnext : ∀ before value, gather (some before) value = some (before ++ value))
    (values : List (List γ)) : (values.foldl gather none).getD [] = values.flatten := by
  have hfrom : ∀ before, values.foldl gather (some before) = some (before ++ values.flatten) := by
    induction values with
    | nil => simp
    | cons value rest ih => simp [hnext, ih]
  cases values with
  | nil => rfl
  | cons value rest =>
      have hrest := hfrom []
      rw [List.foldl_cons, hnext, List.nil_append] at hrest
      rw [List.foldl_cons, hfirst, hrest]
      rfl

-- What may be there many times is read of the children of its name, one of each.
theorem forall₂_listed_children {outer : Surroundings} {element : Element} {node : Node}
    {label : String} {read : Node → Reading γ} {values : List (List γ)} {items : Option (List γ)}
    {gather : Option (List γ) → List γ → Option (List γ)}
    (hchildren : List.Forall₂ (fun e n => Node.ofElement? outer e = some n) element.children
      node.children)
    (hvalues : List.Forall₂ (fun child value => Part.listed read (.nested child) = .ok value)
      (node.children.filter (·.name == label)) values)
    (he : items = values.foldl gather none) (hfirst : ∀ value, gather none value = some value)
    (hnext : ∀ before value, gather (some before) value = some (before ++ value)) :
    List.Forall₂ (fun e item => ∃ n, Node.ofElement? outer e = some n ∧ read n = .ok item)
      (element.children.filter (·.name.localPart == label)) (items.getD []) := by
  rw [he, getD_foldl_append hfirst hnext]
  refine forall₂_comp (List.rel_filter ?_ hchildren) (forall₂_listed hvalues)
  intro e n hn
  simp only [Node.ofElement?_name hn]

-- The links of a robot are read of its elements for links, put in order, and its joints of those for
-- joints.
theorem readRobot_eq_ok {element : Element} {robot : Robot Float} (h : readRobot element = .ok robot) :
    ∃ outer, List.Forall₂
        (fun e link => ∃ node, Node.ofElement? outer e = some node ∧ readLink node = .ok link)
        ((childrenNamed element ["link"]).map arrangeLink) robot.links ∧
      List.Forall₂
        (fun e joint => ∃ node, Node.ofElement? outer e = some node ∧ readJoint node = .ok joint)
        (childrenNamed element ["joint"]) robot.joints := by
  unfold readRobot at h
  split at h
  · simp at h
  · rename_i node hnode
    simp only [Reading.bind_eq_ok_iff, Reading.pure_eq_ok_iff] at h
    obtain ⟨filled, hfilled, rfl⟩ := h
    have hwhole := Form.isWhole_of_readAll hfilled
    obtain ⟨outer, hchildren⟩ := Node.forall₂_children hnode hwhole
    refine ⟨outer, ?_, ?_⟩
    · obtain ⟨values, hvalues, he, -⟩ := Form.fill_values .links hfilled
      have hnested := Form.forall₂_nested rfl (fun _ _ _ => Reading.throw_ne_ok) hwhole hvalues
      have hlinks := forall₂_listed_children hchildren hnested he (fun _ => rfl) fun _ _ => rfl
      simpa [filter_children_arrangeRobot, RobotField.form] using hlinks
    · obtain ⟨values, hvalues, he, -⟩ := Form.fill_values .joints hfilled
      have hnested := Form.forall₂_nested rfl (fun _ _ _ => Reading.throw_ne_ok) hwhole hvalues
      have hjoints := forall₂_listed_children hchildren hnested he (fun _ => rfl) fun _ _ => rfl
      simpa [filter_children_arrangeRobot, RobotField.form] using hjoints

end Robot

-- What the children of one name of a whole node were read as is what their elements are read as.
theorem forall₂_reads_children {counts : Bool} {outer : Surroundings} {elements : List Element}
    {turned : Element} {node : Node} {label : String} {read : Node → Reading γ} {values : List γ}
    (horiented : List.Forall₂ (fun e t => orient counts e = .ok t) elements turned.children)
    (hnode : Node.ofElement? outer turned = some node) (hwhole : node.IsWhole)
    (hvalues : List.Forall₂ (fun child value => read child = .ok value)
      (node.children.filter (·.name == label)) values) :
    List.Forall₂ (Reads read) (elements.filter (·.name.localPart == label)) values := by
  obtain ⟨inner, hchildren⟩ := Node.forall₂_children hnode hwhole
  have hname : ∀ e n, (∃ t, orient counts e = .ok t ∧ Node.ofElement? inner t = some n) →
      ((e.name.localPart == label) = true ↔ (n.name == label) = true) := by
    rintro e n ⟨t, ht, hn⟩
    rw [← (orient_eq_ok ht).1, Node.ofElement?_name hn]
  have hnamed := List.rel_filter (fun {e n} h => hname e n h) (forall₂_comp horiented hchildren)
  refine (forall₂_comp hnamed hvalues).imp ?_
  rintro e value ⟨n, ⟨t, ht, hn⟩, hread⟩
  exact ⟨counts, t, inner, n, ht, hn, hread⟩

section Joint

-- How an axis is read, with its one field.
def readAxis : Node → Reading (Space.Vec3 Float) :=
  readSole "xyz" (Part.plain triple)

variable {element : Element} {joint : Joint Float}

-- The axis of a joint is what is read of the one axis that its element holds, if it holds one.
theorem Reads.forall₂_axis (h : Reads readJoint element joint) :
    List.Forall₂ (Reads readAxis) (element.children.filter (·.name.localPart == "axis"))
      joint.axis.toList := by
  obtain ⟨counts, turned, outer, node, hturned, hnode, hread⟩ := h
  simp only [readJoint, Reading.bind_eq_ok_iff, Reading.pure_eq_ok_iff] at hread
  obtain ⟨filled, hfilled, name, -, kind, -, parent, -, child, -, rfl⟩ := hread
  have hwhole := Form.isWhole_of_readAll hfilled
  have hvalues := Form.readAll_once .axis rfl hfilled
  have hnested := Form.forall₂_nested rfl (fun _ _ _ => Reading.throw_ne_ok) hwhole hvalues
  exact forall₂_reads_children (orient_eq_ok hturned).2 hnode hwhole hnested

theorem Reads.axis_isSome (h : Reads readJoint element joint) :
    joint.axis.isSome = element.holds "axis" := by
  have hread := h.forall₂_axis
  cases haxis : joint.axis with
  | none =>
      rw [haxis, Option.toList_none, List.forall₂_nil_right_iff, List.filter_eq_nil_iff] at hread
      exact (List.any_eq_false.mpr hread).symm
  | some axis =>
      obtain ⟨child, hchild, -⟩ := exists_of_forall₂ hread.flip (Option.mem_toList.mpr haxis)
      exact (List.any_eq_true.mpr ⟨child, List.mem_filter.mp hchild⟩).symm

theorem Reads.exists_axis (h : Reads readJoint element joint) {axis : Space.Vec3 Float}
    (haxis : joint.axis = some axis) :
    ∃ child ∈ element.children, child.name.localPart = "axis" ∧ Reads readAxis child axis := by
  obtain ⟨child, hchild, hread⟩ := exists_of_forall₂ h.forall₂_axis.flip (Option.mem_toList.mpr haxis)
  obtain ⟨hm, hname⟩ := List.mem_filter.mp hchild
  exact ⟨child, hm, beq_iff_eq.mp hname, hread⟩

end Joint

-- An accepted description has been read in two ways: the robot is from the one, what is there from
-- the other.
theorem read_eq_ok_iff {text : String} {robot : Robot Float} {presence : Presence} :
    read text = .ok (robot, presence) ↔ ∃ found root,
      Lenient.document? text = some found ∧ Strict.document? text = some root ∧
      orientDocument found >>= readRobot = .ok robot ∧ presence = .ofRoot root := by
  unfold read
  cases Lenient.document? text with
  | none => simp
  | some found =>
      cases Strict.document? text with
      | none => simp
      | some root =>
          simp only [Reading.bind_eq_ok_iff, Reading.pure_eq_ok_iff, Prod.mk.injEq]
          constructor
          · rintro ⟨turned, hturned, _, hrobot, rfl, rfl⟩
            exact ⟨found, root, rfl, rfl, ⟨turned, hturned, hrobot⟩, rfl⟩
          · rintro ⟨_, _, hfound, hroot, ⟨turned, hturned, hrobot⟩, rfl⟩
            cases hfound
            cases hroot
            exact ⟨turned, hturned, robot, hrobot, rfl, rfl⟩

theorem lenient_ofList (characters : List Char) : Lenient.document? (.ofList characters) =
    Lenient.root? ((Lenient.tokens characters).filter (!·.isDoctype)) := by
  rw [Lenient.document?, String.toList_ofList]

theorem strict_ofList {characters : List Char} (h : Strict.afterDeclaration? characters = none) :
    Strict.document? (.ofList characters) = Strict.tokens? characters >>= Strict.root? false := by
  rw [Strict.document?, String.toList_ofList, h]

-- For a text given by its characters the parts of reading can be gone through one by one.
theorem read_ofList {characters : List Char} {robot : Robot Float} {presence : Presence}
    (hlenient : (Lenient.root? ((Lenient.tokens characters).filter (!·.isDoctype))).bind
      (fun found => (orientDocument found >>= readRobot).toOption) = some robot)
    (hstrict : (Strict.tokens? characters >>= Strict.root? false).map Presence.ofRoot = some presence)
    (hdeclared : Strict.afterDeclaration? characters = none) :
    read (.ofList characters) = .ok (robot, presence) := by
  rw [← lenient_ofList] at hlenient
  rw [← strict_ofList hdeclared] at hstrict
  obtain ⟨found, hfound, hrobot⟩ := Option.bind_eq_some_iff.mp hlenient
  obtain ⟨root, hroot, hpresence⟩ := Option.map_eq_some_iff.mp hstrict
  refine read_eq_ok_iff.mpr ⟨found, root, hfound, hroot, ?_, hpresence.symm⟩
  cases hread : orientDocument found >>= readRobot with
  | error fault => simp [hread, Except.toOption] at hrobot
  | ok read =>
      simp only [hread, Except.toOption, Option.some.injEq] at hrobot
      rw [hrobot]

-- The joints of an accepted description are read of its elements for joints, one of each.
theorem forall₂_reads_joint {found : Element} {robot : Robot Float}
    (h : orientDocument found >>= readRobot = .ok robot) :
    List.Forall₂ (Reads readJoint) (childrenNamed found ["joint"]) robot.joints := by
  obtain ⟨turned, hturned, hrobot⟩ := Reading.bind_eq_ok_iff.mp h
  obtain ⟨outer, -, hjoints⟩ := readRobot_eq_ok hrobot
  refine (forall₂_comp (orient_childrenNamed hturned ["joint"]) hjoints).imp ?_
  rintro e joint ⟨t, ht, node, hnode, hread⟩
  exact ⟨_, t, outer, node, ht, hnode, hread⟩

end Linkage.Description
