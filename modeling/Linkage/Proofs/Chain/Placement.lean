import Linkage.Proofs.Body.Segment
import Linkage.Proofs.Chain.Assembly
import Linkage.Proofs.Chain.Poses
import Linkage.Proofs.Registry.Axes

namespace Linkage

open Body Description Space

variable {α : Type} [Scalar α]

-- What a joint does at a coordinate, given the direction of its axis. Only two kinds turn about it,
-- and all others move along it.
def Description.JointKind.displacement (kind : JointKind) (direction : Vec3 α) (x : α) : Pose α :=
  if kind = .revolute ∨ kind = .continuous then ⟨.zero, .ofAxisAngle direction x⟩
  else ⟨direction.scale x, .one⟩

-- The axis that is written for a joint, and z if none is.
def Description.Joint.ownAxis (joint : Joint α) : Vec3 α :=
  joint.axis.getD .unitZ

-- Where a link is, seen from the one that holds it, when its joint is at `x`. What the axes of the
-- joints are is left open. The root turns about z where it is.
inductive Description.Robot.Places (robot : Robot α) (axisOf : Joint α → Vec3 α) (x : α) :
    String → Pose α → Prop where
  | held {joint : Joint α} {direction : Vec3 α} :
      joint ∈ robot.joints → (axisOf joint).strictDirection? = some direction →
        Places robot axisOf x joint.child
          (joint.origin.pose.compose (joint.kind.displacement direction x))
  | root {name : String} : robot.roots = [name] →
      Places robot axisOf x name (Pose.one.compose ⟨.zero, .ofAxisAngle .unitZ x⟩)

theorem Description.Robot.Places.congr {robot : Robot α} {first second : Joint α → Vec3 α} {x : α}
    {name : String} {pose : Pose α} (h : robot.Places first x name pose)
    (hsame : ∀ joint ∈ robot.joints, joint.child = name → first joint = second joint) :
    robot.Places second x name pose := by
  cases h with
  | held hm hdirection => exact .held hm (hsame _ hm rfl ▸ hdirection)
  | root hroot => exact .root hroot

theorem Body.Segment.displacement_eq {segment : Segment α} {kind : JointKind}
    (h : segment.body.motion = kind.motion) (x : α) :
    segment.displacement x = kind.displacement segment.axis x := by
  unfold Segment.displacement
  rw [h]
  cases kind <;> rfl

namespace Chain

-- What a chain makes of coordinates: an error if they are not as many as its links, and else each
-- link where its own joint places it, the poses being the products from the base on.
structure Follows (robot : Robot α) (axisOf : Joint α → Vec3 α) (chain : Chain α) (q : List α) :
    Prop where
  mismatch : q.length ≠ chain.length →
    chain.transforms q = .error (.jointCountMismatch chain.length q.length) ∧
    chain.poses q = .error (.jointCountMismatch chain.length q.length) ∧
    chain.tipPose q = .error (.jointCountMismatch chain.length q.length)
  placed : q.length = chain.length → ∃ stages poses tip,
    chain.transforms q = .ok stages ∧ chain.poses q = .ok poses ∧ chain.tipPose q = .ok tip ∧
    stages.length = chain.length ∧ poses.length = chain.length ∧
    (∀ (k : Nat) link x stage, chain.names[k]? = some link → q[k]? = some x →
      stages[k]? = some stage → robot.Places axisOf x link stage) ∧
    (∀ i < chain.length, poses[i]? = some ((stages.take (i + 1)).foldl Pose.compose .one)) ∧
    poses.getLast? = some tip

variable {robot : Robot α} {presence : Presence} {pairs : List (String × String)}
  {registry : Registry α} {name : String} {way : List String} {chain : Chain α} {q : List α}

theorem Follows.congr {first second : Joint α → Vec3 α} (h : Follows robot first chain q)
    (hsame : ∀ joint ∈ robot.joints, joint.child ∈ chain.names → first joint = second joint) :
    Follows robot second chain q where
  mismatch := h.mismatch
  placed := by
    intro hq
    obtain ⟨stages, poses, tip, hstages, hposes, htip, hm, hn, hplaces, hproduct, hlast⟩ := h.placed hq
    refine ⟨stages, poses, tip, hstages, hposes, htip, hm, hn, ?_, hproduct, hlast⟩
    intro k link x stage hlink hx hstage
    refine (hplaces k link x stage hlink hx hstage).congr ?_
    rintro joint hj rfl
    exact hsame joint hj (List.mem_of_getElem? hlink)

theorem places_transform (made : Registry.Made robot presence pairs registry)
    (hz : (Vec3.unitZ : Vec3 α).strictDirection? = some .unitZ) {link : String} {entry : Entry α}
    (hget : registry.get? link = some entry) (x : α) :
    robot.Places (·.axisOr presence) x link (entry.segment.transform x) := by
  obtain ⟨found, -, rfl, hsegment, hparent⟩ := made.exists_link hget
  obtain ⟨hdirection, -, horigin, hmotion, -, -, -⟩ := Segment.make?_eq_some_iff.mp hsegment
  cases habove : robot.jointAbove? found.name with
  | some joint =>
      obtain ⟨hm, hchild⟩ := (Robot.jointAbove?_eq_some_iff made.single).mp habove
      simp only [Robot.attachment, habove, Joint.attachment] at hdirection horigin hmotion
      rw [Segment.transform, Segment.displacement_eq hmotion, horigin, ← hchild]
      exact .held hm hdirection
  | none =>
      simp only [Robot.attachment, habove, Attachment.root] at hdirection horigin hmotion
      have hnone : entry.parent = none := by simp [← hparent, Robot.parentOf, habove]
      have haxis : entry.segment.axis = .unitZ := Option.some.inj (hdirection.symm.trans hz)
      have hdisplacement : entry.segment.displacement x = ⟨.zero, .ofAxisAngle .unitZ x⟩ := by
        simp only [Segment.displacement, hmotion, haxis]
      rw [Segment.transform, hdisplacement, horigin]
      exact .root ((made.parent_eq_none_iff hget).mp hnone)

-- A segment is looked up by the same name as its joint, so that each coordinate goes where it belongs.
theorem follows (made : Registry.Made robot presence pairs registry)
    (hz : (Vec3.unitZ : Vec3 α).strictDirection? = some .unitZ)
    (hassembled : Assembled robot registry way name chain) (q : List α) :
    Follows robot (·.axisOr presence) chain q where
  mismatch := fun hq => ⟨transforms_eq_error hq, poses_eq_error hq, tipPose_eq_error hq⟩
  placed := by
    intro hq
    have hne : chain.members ≠ [] := fun hnil => hassembled.ne_nil (by simp [names, hnil])
    obtain ⟨tip, hlast, htip⟩ := tipPose_eq_ok hq hne
    have hstages := length_stages hq
    refine ⟨chain.stages q, accumulate .one (chain.stages q), tip, transforms_eq_ok hq,
      poses_eq_ok hq, htip, hstages, ?_, ?_, ?_, hlast⟩
    · rw [length_accumulate, hstages]
    · intro k link x stage hlink hx hstage
      obtain ⟨segment, x', hsegment, hx', rfl⟩ := List.getElem?_zipWith_eq_some.mp hstage
      cases hx.symm.trans hx'
      have hentry := congrArg (·[k]?) hassembled.segments_eq
      simp only [List.getElem?_map, hsegment, hlink, Option.map_some, Option.some.injEq] at hentry
      obtain ⟨entry, hget, rfl⟩ := Option.map_eq_some_iff.mp hentry.symm
      exact places_transform made hz hget x
    · intro i hi
      exact getElem?_accumulate _ _ (hstages ▸ hi)

open Markup Registry

theorem strictDirection?_unitZ : (Vec3.unitZ : Vec3 Float).strictDirection? = some .unitZ := by
  decide +kernel

theorem axisOr_eq_ownAxis {found root : Element} {robot : Robot Float}
    (hjoints : List.Forall₂ (Reads readJoint) (childrenNamed found ["joint"]) robot.joints)
    {joint : Joint Float} (hm : joint ∈ robot.joints) :
    joint.axisOr (.ofRoot root) = joint.ownAxis ↔
      (joint.axis.isSome = true ↔ NamesAxis root joint.name) ∨ joint.axis = some .unitZ := by
  obtain ⟨element, -, hflip⟩ := exists_of_forall₂ hjoints.flip hm
  have hreads : Reads readJoint element joint := hflip
  have hsome := hreads.axis_isSome
  have hown : joint.ownAxis = Registry.ownAxis element joint := by
    rw [Joint.ownAxis, Registry.ownAxis, ← hsome]
    cases joint.axis <;> rfl
  rw [hown, hsome]
  exact axisOr_eq_ownAxis_iff hreads

-- A chain of an accepted description does what the joints say, each with the axis that its name
-- finds. That is its own axis exactly if its name tells rightly whether it has one, or if it
-- makes no difference, and where all joints of a chain have their own, it does just what they say.
theorem ofText_follows (reader : Reader) (text : String) (registry : Registry Float)
    (h : (ofText reader text).2 = .ok registry) :
    ∃ found root robot presence,
      Lenient.document? text = some found ∧ Strict.document? text = some root ∧
      Description.read text = .ok (robot, presence) ∧ presence = .ofRoot root ∧
      List.Forall₂ (Reads readJoint) (childrenNamed found ["joint"]) robot.joints ∧
      (∀ element joint, (element, joint) ∈ (childrenNamed found ["joint"]).zip robot.joints →
        joint.axis.isSome = element.holds "axis" ∧
        ∀ axis, joint.axis = some axis → ∃ child ∈ element.children,
          child.name.localPart = "axis" ∧ Reads readAxis child axis) ∧
      (∀ joint ∈ robot.joints, joint.axisOr presence = joint.ownAxis ↔
        (joint.axis.isSome = true ↔ NamesAxis root joint.name) ∨ joint.axis = some .unitZ) ∧
      ∀ name, registry.contains name = true → ∃ chain way,
        toLink registry name = .ok chain ∧ Assembled robot registry way name chain ∧ ∀ q,
          Follows robot (·.axisOr presence) chain q ∧
          ((∀ joint ∈ robot.joints, joint.child ∈ chain.names →
              (joint.axis.isSome = true ↔ NamesAxis root joint.name) ∨ joint.axis = some .unitZ) →
            Follows robot Joint.ownAxis chain q) := by
  obtain ⟨robot, presence, hread, hregistry⟩ := ofText_eq_ok_iff.mp h
  obtain ⟨found, root, hfound, hroot, hrobot, rfl⟩ := read_eq_ok_iff.mp hread
  have hjoints := forall₂_reads_joint hrobot
  have made := made_of_ofRobot hregistry
  refine ⟨found, root, robot, .ofRoot root, hfound, hroot, hread, rfl, hjoints, ?_,
    fun joint hm => axisOr_eq_ownAxis hjoints hm, ?_⟩
  · intro element joint hzip
    have hreads := List.forall₂_zip hjoints hzip
    exact ⟨hreads.axis_isSome, fun axis hsome => hreads.exists_axis hsome⟩
  · intro name hmem
    obtain ⟨top, way, tree, hroute⟩ := made.exists_route hmem
    have hassembled := assembled made tree hroute hmem
    refine ⟨_, way, toLink_eq made tree hroute hmem, hassembled, ?_⟩
    intro q
    have hfollows := follows made strictDirection?_unitZ hassembled q
    refine ⟨hfollows, fun htold => hfollows.congr ?_⟩
    intro joint hm hchild
    exact (axisOr_eq_ownAxis hjoints hm).mpr (htold joint hm hchild)

-- Two sleds on one base that slide along y. The first joint has its name as an element.
def sledsCharacters : List Char :=
  ["<robot name='r'><link name='a'/>",
    "<link name='b'><inertial><mass value='1'/>",
    "<inertia ixx='1' ixy='0' ixz='0' iyy='1' iyz='0' izz='1'/>",
    "</inertial></link>",
    "<link name='c'><inertial><mass value='1'/>",
    "<inertia ixx='1' ixy='0' ixz='0' iyy='1' iyz='0' izz='1'/>",
    "</inertial></link>",
    "<joint type='prismatic'><name>j</name>",
    "<parent link='a'/><child link='b'/>",
    "<axis xyz='0 1 0'/></joint>",
    "<joint name='k' type='prismatic'>",
    "<parent link='a'/><child link='c'/>",
    "<axis xyz='0 1 0'/></joint></robot>"].flatMap String.toList

def sleds : String :=
  .ofList sledsCharacters

def sledsRobot : Robot Float where
  links := [⟨"a", none⟩, ⟨"b", some ⟨.here, 1, ⟨1, 0, 0, 1, 0, 1⟩⟩⟩,
    ⟨"c", some ⟨.here, 1, ⟨1, 0, 0, 1, 0, 1⟩⟩⟩]
  joints := [⟨"j", .prismatic, .here, "a", "b", some ⟨0, 1, 0⟩⟩,
    ⟨"k", .prismatic, .here, "a", "c", some ⟨0, 1, 0⟩⟩]

def sledsPresence : Presence :=
  ⟨["b", "c"], ["k"]⟩

theorem read_sleds : Description.read sleds = .ok (sledsRobot, sledsPresence) :=
  read_ofList (by decide +kernel) (by decide +kernel) (by decide +kernel)

theorem exists_ofText_sleds : ∃ registry chain, (ofText .plain sleds).2 = .ok registry ∧
    registry.contains "b" = true ∧ registry.contains "c" = true ∧
      toLink registry "c" = .ok chain ∧ chain.names = ["c"] := by
  have hnames : ((ofRobot .plain sledsRobot sledsPresence).2 >>= fun registry =>
      (toLink registry "c").map names) = .ok ["c"] := by decide +kernel
  cases hregistry : (ofRobot .plain sledsRobot sledsPresence).2 with
  | error failure => simp [hregistry, bind, Except.bind] at hnames
  | ok registry =>
      have made := made_of_ofRobot hregistry
      have htext : (ofText .plain sleds).2 = .ok registry :=
        ofText_eq_ok_iff.mpr ⟨sledsRobot, sledsPresence, read_sleds, hregistry⟩
      have hb : registry.contains "b" = true := made.contains_iff.mpr
        ⟨⟨_, List.mem_cons_of_mem _ List.mem_cons_self, rfl⟩, List.mem_cons_self⟩
      have hc : registry.contains "c" = true := made.contains_iff.mpr
        ⟨⟨_, List.mem_cons_of_mem _ (List.mem_cons_of_mem _ List.mem_cons_self), rfl⟩,
          List.mem_cons_of_mem _ List.mem_cons_self⟩
      cases hchain : toLink registry "c" with
      | error failure => simp [hregistry, hchain, bind, Except.bind, Except.map] at hnames
      | ok chain =>
          simp only [hregistry, hchain, bind, Except.bind, Except.map, Except.ok.injEq] at hnames
          exact ⟨registry, chain, htext, hb, hc, hchain, hnames⟩

-- The sled whose joint has its name as an attribute moves as its joint says.
theorem ofText_follows_sleds : ∃ registry chain, (ofText .plain sleds).2 = .ok registry ∧
    toLink registry "c" = .ok chain ∧ chain.names = ["c"] ∧
      Follows sledsRobot Joint.ownAxis chain [1] := by
  obtain ⟨registry, chain, hregistry, -, hc, hchain, hnames⟩ := exists_ofText_sleds
  obtain ⟨found, root, robot, presence, -, -, hread, hpresence, -, -, -, hall⟩ :=
    ofText_follows .plain sleds registry hregistry
  cases read_sleds.symm.trans hread
  obtain ⟨other, way, hother, -, hfollows⟩ := hall "c" hc
  cases hchain.symm.trans hother
  have hnamed : NamesAxis root "k" := by
    rw [NamesAxis, ← Presence.mem_namesHolding]
    have hmem : "k" ∈ sledsPresence.axis := List.mem_cons_self
    rwa [hpresence] at hmem
  refine ⟨registry, chain, hregistry, hchain, hnames, (hfollows [1]).2 ?_⟩
  intro joint hm hchild
  rw [hnames] at hchild
  rcases List.mem_cons.mp hm with rfl | hm
  · simp at hchild
  · cases List.mem_singleton.mp hm
    exact .inl ⟨fun _ => hnamed, fun _ => rfl⟩

-- The other one moves along z, though y is written for it.
theorem ofText_sleds_displacement : ∃ registry entry, (ofText .plain sleds).2 = .ok registry ∧
    registry.get? "b" = some entry ∧ ∃ joint ∈ sledsRobot.joints, joint.child = "b" ∧
      joint.axis = some ⟨0, 1, 0⟩ ∧ joint.ownAxis.strictDirection? = some ⟨0, 1, 0⟩ ∧
      entry.segment.displacement 1 = ⟨⟨0, 0, 1⟩, .one⟩ ∧
      entry.segment.displacement 1 ≠ joint.kind.displacement ⟨0, 1, 0⟩ 1 := by
  obtain ⟨registry, chain, hregistry, hb, -⟩ := exists_ofText_sleds
  obtain ⟨entry, hget⟩ := Option.isSome_iff_exists.mp hb
  obtain ⟨robot, presence, hread, hok⟩ := ofText_eq_ok_iff.mp hregistry
  cases read_sleds.symm.trans hread
  have made := made_of_ofRobot hok
  obtain ⟨link, -, hname, hsegment, -⟩ := made.exists_link hget
  obtain ⟨hdirection, -, -, hmotion, -⟩ := Segment.make?_eq_some_iff.mp hsegment
  have hattachment : sledsRobot.attachment sledsPresence link = ⟨Origin.here.pose, .unitZ, .sliding⟩ := by
    simp only [Robot.attachment, hname]
    rfl
  have haxis : entry.segment.axis = .unitZ := by
    rw [hattachment, strictDirection?_unitZ] at hdirection
    exact (Option.some.inj hdirection).symm
  have hmoved : entry.segment.displacement 1 = ⟨⟨0, 0, 1⟩, .one⟩ := by
    simp only [Segment.displacement, hmotion, hattachment, haxis]
    decide +kernel
  refine ⟨registry, entry, hregistry, hget, _, List.mem_cons_self, rfl, rfl, ?_, hmoved, ?_⟩
  · decide +kernel
  · rw [hmoved]
    decide +kernel

end Chain

end Linkage
