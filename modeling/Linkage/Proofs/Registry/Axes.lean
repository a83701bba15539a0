import Linkage.Load
import Linkage.Proofs.Body.Segment
import Linkage.Proofs.Description.Elements
import Linkage.Proofs.Registry.Representation

namespace Linkage

open Body Description Markup Space

theorem Body.Segment.axis_of_make? {α : Type} [Scalar α] {origin center : Pose α} {axis : Vec3 α}
    {motion : Motion} {mass : α} {inertia : Mat3 α} {segment : Segment α}
    (h : Segment.make? origin axis motion mass center inertia = some segment) :
    axis.strictDirection? = some segment.axis :=
  (Segment.make?_eq_some_iff.mp h).1

theorem Description.Presence.mem_namesHolding {root : Element} {kind inner name : String} :
    name ∈ namesHolding root kind inner ↔ ∃ child ∈ root.children, child.name.base = kind ∧
      (∃ held ∈ child.children, held.name.base = inner) ∧
        child.plainAttribute? "name" = some name := by
  simp only [namesHolding, List.mem_filterMap, List.mem_filter, Bool.and_eq_true, beq_iff_eq,
    List.any_eq_true, and_assoc]

namespace Registry

-- The axis that a joint's own element gives it: what is written there, and z if nothing is.
def ownAxis (element : Element) (joint : Joint Float) : Vec3 Float :=
  if element.holds "axis" then joint.axis.getD .unitX else .unitZ

-- Whether a name is the attribute `name` of an element for a joint that holds an axis.
def NamesAxis (root : Element) (name : String) : Prop :=
  ∃ child ∈ root.children, child.name.base = "joint" ∧
    (∃ held ∈ child.children, held.name.base = "axis") ∧ child.plainAttribute? "name" = some name

-- The axis of a joint is its own where its name tells rightly whether it has one, or where it has
-- the one that is taken for none.
theorem axisOr_eq_ownAxis_iff {root element : Element} {joint : Joint Float}
    (h : Reads readJoint element joint) :
    joint.axisOr (.ofRoot root) = ownAxis element joint ↔
      (element.holds "axis" = true ↔ NamesAxis root joint.name) ∨ joint.axis = some .unitZ := by
  have hsome := h.axis_isSome
  have hnamed : NamesAxis root joint.name ↔ (Presence.ofRoot root).axis.contains joint.name = true := by
    rw [List.contains_iff_mem]
    exact Presence.mem_namesHolding.symm
  have hne : (Vec3.unitX : Vec3 Float) ≠ .unitZ := by decide
  rw [hnamed, Joint.axisOr, ownAxis, ← hsome]
  generalize (Presence.ofRoot root).axis.contains joint.name = named
  cases joint.axis with
  | none =>
      cases named with
      | false => simp
      | true => simp [hne]
  | some axis =>
      cases named with
      | false => simp [eq_comm]
      | true => simp

theorem ofText_eq_ok_iff {reader : Reader} {text : String} {registry : Registry Float} :
    (ofText reader text).2 = .ok registry ↔ ∃ robot presence,
      Description.read text = .ok (robot, presence) ∧
        (ofRobot reader.order robot presence).2 = .ok registry := by
  unfold ofText
  cases Description.read text with
  | error fault => simp
  | ok found =>
      obtain ⟨robot, presence⟩ := found
      simp

theorem exists_of_isOk {ε γ : Type} {result : Except ε γ} (h : result.isOk = true) :
    ∃ value, result = .ok value := by
  cases result with
  | error failure => simp [Except.isOk, Except.toBool] at h
  | ok value => exact ⟨value, rfl⟩

-- Names stand between the two ways of reading a text. A link with an entry has the axis that its
-- joint's own element gives it exactly if they do not mislead, or if it makes no difference.
theorem ofText_axis_iff (reader : Reader) (text : String) (registry : Registry Float)
    (h : (ofText reader text).2 = .ok registry) :
    ∃ found root robot presence,
      Lenient.document? text = some found ∧ Strict.document? text = some root ∧
      Description.read text = .ok (robot, presence) ∧
      List.Forall₂ (Reads readJoint) (childrenNamed found ["joint"]) robot.joints ∧
      ∀ name entry, registry.get? name = some entry →
        ∀ element joint, (element, joint) ∈ (childrenNamed found ["joint"]).zip robot.joints →
          joint.child = name →
            (∀ axis, joint.axis = some axis → ∃ child ∈ element.children,
              child.name.localPart = "axis" ∧ Reads readAxis child axis) ∧
            joint.axis.isSome = element.holds "axis" ∧
            ∃ link ∈ robot.links, link.name = name ∧
              robot.segment? presence link = some entry.segment ∧
              (robot.attachment presence link).axis.strictDirection? = some entry.segment.axis ∧
              ((robot.attachment presence link).axis = ownAxis element joint ↔
                (element.holds "axis" = true ↔ NamesAxis root joint.name) ∨
                  joint.axis = some .unitZ) := by
  obtain ⟨robot, presence, hread, hregistry⟩ := ofText_eq_ok_iff.mp h
  obtain ⟨found, root, hfound, hroot, hrobot, rfl⟩ := read_eq_ok_iff.mp hread
  have hjoints := forall₂_reads_joint hrobot
  have made := made_of_ofRobot hregistry
  refine ⟨found, root, robot, .ofRoot root, hfound, hroot, hread, hjoints, ?_⟩
  intro name entry hget element joint hzip hchild
  have hreads := List.forall₂_zip hjoints hzip
  obtain ⟨link, hm, hname, hsegment, -⟩ := made.exists_link hget
  have habove : robot.jointAbove? link.name = some joint :=
    (Robot.jointAbove?_eq_some_iff made.single).mpr
      ⟨(List.of_mem_zip hzip).2, hchild.trans hname.symm⟩
  have haxis : (robot.attachment (.ofRoot root) link).axis = joint.axisOr (.ofRoot root) := by
    simp only [Robot.attachment, habove]
    rfl
  refine ⟨fun _ hsome => hreads.exists_axis hsome, hreads.axis_isSome, link, hm, hname, hsegment,
    Segment.axis_of_make? hsegment, ?_⟩
  rw [haxis]
  exact axisOr_eq_ownAxis_iff hreads

-- Two joints of one name, of which only the second has an axis. The characters come line by line,
-- so that they are quick to tell apart.
def twinCharacters : List Char :=
  ["<robot name='r'><link name='a'/>",
    "<link name='b'><inertial><mass value='1'/>",
    "<inertia ixx='1' ixy='0' ixz='0' iyy='1' iyz='0' izz='1'/>",
    "</inertial></link><link name='c'/>",
    "<joint name='j' type='prismatic'>",
    "<parent link='a'/><child link='b'/></joint>",
    "<joint name='j' type='prismatic'>",
    "<parent link='b'/><child link='c'/>",
    "<axis xyz='0 1 0'/></joint></robot>"].flatMap String.toList

def twin : String :=
  .ofList twinCharacters

def twinRobot : Robot Float where
  links := [⟨"a", none⟩, ⟨"b", some ⟨.here, 1, ⟨1, 0, 0, 1, 0, 1⟩⟩⟩, ⟨"c", none⟩]
  joints := [⟨"j", .prismatic, .here, "a", "b", none⟩,
    ⟨"j", .prismatic, .here, "b", "c", some ⟨0, 1, 0⟩⟩]

def twinPresence : Presence :=
  ⟨["b"], ["j"]⟩

theorem read_twin : Description.read twin = .ok (twinRobot, twinPresence) :=
  read_ofList (by decide +kernel) (by decide +kernel) (by decide +kernel)

theorem exists_ofText_twin : ∃ registry entry,
    (ofText .plain twin).2 = .ok registry ∧ registry.get? "b" = some entry := by
  have hok : (ofRobot .plain twinRobot twinPresence).2.isOk = true := by rfl
  obtain ⟨registry, hregistry⟩ := exists_of_isOk hok
  have made := made_of_ofRobot hregistry
  have hcontains : registry.contains "b" = true := by
    rw [made.contains_iff]
    unfold Robot.Declares
    decide
  obtain ⟨entry, hget⟩ := Option.isSome_iff_exists.mp hcontains
  exact ⟨registry, entry, ofText_eq_ok_iff.mpr ⟨_, _, read_twin, hregistry⟩, hget⟩

theorem ofText_axis_iff_twin : ∃ registry entry,
    (ofText .plain twin).2 = .ok registry ∧ registry.get? "b" = some entry ∧
      (Vec3.unitX : Vec3 Float).strictDirection? = some entry.segment.axis := by
  obtain ⟨registry, entry, hregistry, hget⟩ := exists_ofText_twin
  obtain ⟨found, root, robot, presence, -, -, hread, hjoints, hall⟩ :=
    ofText_axis_iff .plain twin registry hregistry
  cases read_twin.symm.trans hread
  generalize childrenNamed found ["joint"] = elements at hjoints hall
  cases hjoints with
  | cons hreads hrest =>
      obtain ⟨-, -, link, -, hname, -, hdirection, -⟩ :=
        hall "b" entry hget _ _ List.mem_cons_self rfl
      have haxis : (twinRobot.attachment twinPresence link).axis = .unitX := by
        simp only [Robot.attachment, hname]
        rfl
      exact ⟨registry, entry, hregistry, hget, by rw [← haxis, hdirection]⟩

-- The first of two joints of one name gets the axis x, though its own element holds none.
theorem ofText_twin_axis : ∃ registry entry found element joint link,
    (ofText .plain twin).2 = .ok registry ∧ registry.get? "b" = some entry ∧
      Lenient.document? twin = some found ∧
      (element, joint) ∈ (childrenNamed found ["joint"]).zip twinRobot.joints ∧
      Reads readJoint element joint ∧ joint.child = "b" ∧ element.holds "axis" = false ∧
      link ∈ twinRobot.links ∧ link.name = "b" ∧
      twinRobot.segment? twinPresence link = some entry.segment ∧
      (twinRobot.attachment twinPresence link).axis ≠ ownAxis element joint := by
  obtain ⟨registry, entry, hregistry, hget⟩ := exists_ofText_twin
  obtain ⟨found, root, hfound, -, hrobot, -⟩ := read_eq_ok_iff.mp read_twin
  have hjoints := forall₂_reads_joint hrobot
  generalize hnamed : childrenNamed found ["joint"] = elements at hjoints
  obtain ⟨robot, presence, hread, hok⟩ := ofText_eq_ok_iff.mp hregistry
  cases read_twin.symm.trans hread
  obtain ⟨link, hm, hname, hsegment, -⟩ := (made_of_ofRobot hok).exists_link hget
  cases hjoints with
  | @cons element joint rest others hreads hrest =>
      have hnone : element.holds "axis" = false := hreads.axis_isSome.symm
      refine ⟨registry, entry, found, element, _, link, hregistry, hget, hfound, ?_, hreads, rfl,
        hnone, hm, hname, hsegment, ?_⟩
      · rw [hnamed]
        exact List.mem_cons_self
      · have haxis : (twinRobot.attachment twinPresence link).axis = .unitX := by
          simp only [Robot.attachment, hname]
          rfl
        have hne : (Vec3.unitX : Vec3 Float) ≠ .unitZ := by decide
        simpa [haxis, ownAxis, hnone] using hne

end Registry

end Linkage
