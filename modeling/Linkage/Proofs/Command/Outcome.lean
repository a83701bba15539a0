import Linkage.Command.Run
import Linkage.Proofs.Chain.Poses
import Linkage.Proofs.Chain.Transfer
import Linkage.Proofs.Command.Lines
import Linkage.Proofs.Lineage.Reordering
import Linkage.Proofs.Registry.Acceptance
import Linkage.Proofs.Registry.Axes
import Linkage.Proofs.Registry.Notes

namespace Linkage

open Body Description Lineage Space

-- The joint that holds a link, if it neither turns nor slides.
def Description.Robot.foldedJoint? {α : Type} (robot : Robot α) (link : Link α) : Option (Joint α) :=
  (robot.jointAbove? link.name).filter fun joint =>
    joint.kind ∉ [.revolute, .continuous, .prismatic]

namespace Command

variable {reader : Reader} {lookup : String → Except FileFault String} {arguments : Arguments}
  {robot : Robot Float} {presence : Presence} {pairs : List (String × String)}
  {registry : Registry Float} {chain : Chain Float}

def warnings (robot : Robot Float) (links : List (Link Float)) : List Line :=
  links.filterMap fun link => (robot.foldedJoint? link).map .warning

-- Whether a path leads to a text that is read as a robot.
def Describes (lookup : String → Except FileFault String) (path : String) (robot : Robot Float)
    (presence : Presence) : Prop :=
  ∃ text, lookup path = .ok text ∧ Description.read text = .ok (robot, presence)

theorem Describes.unique {path : String} {other : Robot Float} {written : Presence}
    (h : Describes lookup path robot presence) (hother : Describes lookup path other written) :
    other = robot ∧ written = presence := by
  obtain ⟨text, hlookup, hread⟩ := h
  obtain ⟨text', hlookup', hread'⟩ := hother
  cases hlookup.symm.trans hlookup'
  cases hread.symm.trans hread'
  exact ⟨rfl, rfl⟩

theorem Describes.ofFile_eq {path : String} (h : Describes lookup path robot presence)
    (reader : Reader) :
    Registry.ofFile reader lookup path = Registry.ofRobot reader.order robot presence := by
  obtain ⟨text, hlookup, hread⟩ := h
  simp [Registry.ofFile, hlookup, Registry.ofText, hread]

-- How a run goes on after the entries of its registry, and its exit status. There is a pose for
-- every link of the chain or there are none.
inductive Ending (registry : Registry Float) (arguments : Arguments) : Nat → List Line → Prop where
  | plain : arguments.leaf = none → Ending registry arguments 0 []
  | unknown {leaf : String} : arguments.leaf = some leaf → registry.contains leaf = false →
      Ending registry arguments 1 [.failure (.linkNotFound leaf)]
  | mismatched {leaf : String} {chain : Chain Float} : arguments.leaf = some leaf →
      registry.contains leaf = true → Chain.toLink registry leaf = .ok chain →
      arguments.coordinates ≠ [] → arguments.coordinates.length ≠ chain.length →
        Ending registry arguments 1 [.chain chain,
          .failure (.jointCountMismatch chain.length arguments.coordinates.length)]
  | placed {leaf : String} {chain : Chain Float} {q : List Float} {poses : List (Pose Float)} :
      arguments.leaf = some leaf → registry.contains leaf = true →
      Chain.toLink registry leaf = .ok chain →
      (arguments.coordinates = [] → q = List.replicate chain.length 0.0) →
      (arguments.coordinates ≠ [] → q = arguments.coordinates) →
      chain.poses q = .ok poses → poses.length = chain.length →
        Ending registry arguments 0 (.chain chain :: List.zipWith .pose chain.names poses)

-- What a run says, from its first line to its last, and its exit status.
inductive Reports (reader : Reader) (lookup : String → Except FileFault String)
    (arguments : Arguments) : Nat → List Line → Prop where
  | refused {failure : Failure} :
      (Registry.ofFile reader lookup arguments.path).2 = .error failure →
      failure ≠ .degenerateAxis → Reports reader lookup arguments 1 [.failure failure]
  | stopped {robot : Robot Float} {presence : Presence} {before : List (Link Float)}
      {link : Link Float} :
      (Registry.ofFile reader lookup arguments.path).2 = .error .degenerateAxis →
      Describes lookup arguments.path robot presence →
      Registry.Stops robot presence robot.links before link →
        Reports reader lookup arguments 1
          (warnings robot ((before ++ [link]).filter (presence.inertial.contains ·.name)) ++
            [.failure .degenerateAxis])
  | listed {robot : Robot Float} {presence : Presence} {registry : Registry Float}
      {entries rest : List Line} {status : Nat} :
      (Registry.ofFile reader lookup arguments.path).2 = .ok registry →
      Describes lookup arguments.path robot presence →
      List.Forall₂ (fun name line => ∃ entry, registry.get? name = some entry ∧
        line = .entry name entry) registry.order entries →
      Ending registry arguments status rest →
        Reports reader lookup arguments status
          (warnings robot (robot.links.filter (registry.contains ·.name)) ++
            .read entries.length arguments.path :: (entries ++ rest))

-- Whether there is a registry and, if a leaf is named, a chain to it that has all its coordinates.
def Satisfiable (reader : Reader) (lookup : String → Except FileFault String)
    (arguments : Arguments) : Prop :=
  ∃ registry, (Registry.ofFile reader lookup arguments.path).2 = .ok registry ∧
    ∀ leaf, arguments.leaf = some leaf → registry.contains leaf = true ∧
      ∃ chain, Chain.toLink registry leaf = .ok chain ∧
        (arguments.coordinates.length = 0 ∨ arguments.coordinates.length = chain.length)

theorem filterMap_warnings (robot : Robot Float) (link : Link Float) :
    (robot.warnings link).filterMap eventLine? =
      ((robot.foldedJoint? link).map (Line.text ∘ .warning)).toList := by
  rw [Robot.warnings, Robot.foldedJoint?]
  cases robot.jointAbove? link.name with
  | none => rfl
  | some joint =>
      obtain ⟨name, kind, origin, parent, child, axis⟩ := joint
      cases kind <;> rfl

theorem filterMap_notes_of_mem (robot : Robot Float) {link : Link Float}
    (hm : link.name ∈ presence.inertial) :
    (Registry.notes robot presence link).filterMap eventLine? =
      (robot.warnings link).filterMap eventLine? := by
  have hentered (parent : Option String) :
      [Event.entered link.name parent].filterMap eventLine? = [] := rfl
  rw [Registry.notes, if_pos (List.contains_iff_mem.mpr hm), List.filterMap_append, hentered,
    List.append_nil]

theorem filterMap_notes (robot : Robot Float) (presence : Presence) (links : List (Link Float)) :
    (links.flatMap (Registry.notes robot presence)).filterMap eventLine? =
      (warnings robot (links.filter (presence.inertial.contains ·.name))).map Line.text := by
  induction links with
  | nil => rfl
  | cons link rest ih =>
      rw [List.flatMap_cons, List.filterMap_append, ih]
      by_cases hm : link.name ∈ presence.inertial
      · have hfilter : (link :: rest).filter (presence.inertial.contains ·.name) =
            link :: rest.filter (presence.inertial.contains ·.name) := by simp [hm]
        rw [filterMap_notes_of_mem robot hm, filterMap_warnings, hfilter]
        cases hfolded : robot.foldedJoint? link with
        | none => simp [warnings, hfolded]
        | some joint => simp [warnings, hfolded]
      · have hskipped : [Event.skipped link.name].filterMap eventLine? = [] := rfl
        simp [Registry.notes, hm, hskipped]

theorem ofFile_cases (reader : Reader) (lookup : String → Except FileFault String) (path : String) :
    (∃ failure, failure ≠ .degenerateAxis ∧
      Registry.ofFile reader lookup path = ([], .error failure)) ∨
      ∃ robot presence, Describes lookup path robot presence ∧
        Registry.ofFile reader lookup path = Registry.ofRobot reader.order robot presence := by
  cases hlookup : lookup path with
  | error fault => exact .inl ⟨.unreadable path fault, by simp, by simp [Registry.ofFile, hlookup]⟩
  | ok text =>
      cases hread : Description.read text with
      | error fault =>
          exact .inl ⟨.invalid fault (reader.complain text), by simp,
            by simp [Registry.ofFile, hlookup, Registry.ofText, hread]⟩
      | ok found =>
          have hd : Describes lookup path found.1 found.2 := ⟨text, hlookup, hread⟩
          exact .inr ⟨found.1, found.2, hd, hd.ofFile_eq reader⟩

-- The outcome that has some lines.
def Outcome.saying (status : Nat) (said : List Line) : Outcome :=
  ⟨status, said.map Line.text⟩

theorem after_saying (before rest : List Line) (status : Nat) :
    (Outcome.saying status rest).after (before.map Line.text) = .saying status (before ++ rest) := by
  simp [Outcome.saying, Outcome.after]

def entryLines (registry : Registry Float) : List Line :=
  registry.ordered.map fun (name, entry) => .entry name entry

theorem forall₂_entryLines (made : Registry.Made robot presence pairs registry) :
    List.Forall₂ (fun name line => ∃ entry, registry.get? name = some entry ∧
      line = .entry name entry) registry.order (entryLines registry) := by
  rw [← made.map_fst_ordered, entryLines, List.forall₂_map_left_iff, List.forall₂_map_right_iff,
    List.forall₂_same]
  rintro ⟨name, entry⟩ hm
  exact ⟨entry, (Registry.mem_ordered.mp hm).2, rfl⟩

theorem length_entryLines (made : Registry.Made robot presence pairs registry) :
    (entryLines registry).length = registry.size := by
  rw [made.size_eq, ← made.map_fst_ordered, entryLines, List.length_map, List.length_map]

-- What is said of a registry before the arguments are looked at again.
def listing (arguments : Arguments) (registry : Registry Float) : List Line :=
  .read registry.size arguments.path :: entryLines registry

theorem map_text_listing (arguments : Arguments) (registry : Registry Float) :
    (listing arguments registry).map Line.text = readLine registry.size arguments.path ::
      registry.ordered.map fun (name, entry) => entryLine name entry := by
  rw [listing, entryLines, List.map_cons, List.map_map]
  rfl

theorem showRegistry_of_toLink {leaf : String} (hleaf : arguments.leaf = some leaf)
    (hchain : Chain.toLink registry leaf = .ok chain) :
    showRegistry arguments registry = (followChain chain arguments.coordinates).after
      ((listing arguments registry).map Line.text) := by
  simp only [showRegistry, hleaf, hchain, map_text_listing]

theorem followChain_of_length {q : List Float} (hne : q ≠ []) (hlength : q.length ≠ chain.length) :
    followChain chain q =
      ⟨1, [chainLine chain, failureLine (.jointCountMismatch chain.length q.length)]⟩ := by
  have hq : (if q.isEmpty then List.replicate chain.length 0.0 else q) = q := by simp [hne]
  simp only [followChain, hq, Chain.poses_eq_error hlength]
  rfl

theorem followChain_of_poses {coordinates q : List Float} {poses : List (Pose Float)}
    (hnone : coordinates = [] → q = List.replicate chain.length 0.0)
    (hsome : coordinates ≠ [] → q = coordinates) (hposes : chain.poses q = .ok poses) :
    followChain chain coordinates =
      ⟨0, chainLine chain :: List.zipWith poseLine chain.names poses⟩ := by
  have hq : (if coordinates.isEmpty then List.replicate chain.length 0.0 else coordinates) = q := by
    cases coordinates with
    | nil => exact (hnone rfl).symm
    | cons first rest => exact (hsome (by simp)).symm
  simp only [followChain, hq, hposes, Outcome.succeed]

-- Without coordinates all of them are zero, which are as many as there are links.
theorem followChain_nil (chain : Chain Float) :
    followChain chain [] = followChain chain (List.replicate chain.length 0.0) := by
  have hzeros : (if (List.replicate chain.length (0.0 : Float)).isEmpty then
      List.replicate chain.length (0.0 : Float) else List.replicate chain.length 0.0) =
        List.replicate chain.length 0.0 := ite_self _
  simp only [followChain, hzeros]
  rfl

theorem exists_coordinates (chain : Chain Float) (coordinates : List Float) :
    ∃ q, (coordinates = [] → q = List.replicate chain.length 0.0) ∧
      (coordinates ≠ [] → q = coordinates) := by
  by_cases hnil : coordinates = []
  · exact ⟨_, fun _ => rfl, fun hne => absurd hnil hne⟩
  · exact ⟨_, fun h => absurd h hnil, fun _ => rfl⟩

theorem exists_ending (made : Registry.Made robot presence pairs registry)
    (arguments : Arguments) :
    ∃ status rest, Ending registry arguments status rest ∧
      showRegistry arguments registry = .saying status (listing arguments registry ++ rest) := by
  cases hleaf : arguments.leaf with
  | none =>
      refine ⟨0, [], .plain hleaf, ?_⟩
      simp [showRegistry, hleaf, Outcome.succeed, Outcome.saying, map_text_listing]
  | some leaf =>
      cases hmem : registry.contains leaf with
      | false =>
          refine ⟨1, _, .unknown hleaf hmem, ?_⟩
          simp [showRegistry, hleaf, Chain.toLink_of_not_contains hmem, Outcome.fail, Outcome.saying,
            map_text_listing, Line.text]
      | true =>
          obtain ⟨chain, hchain⟩ := Chain.exists_toLink made hmem
          obtain ⟨q, hnone, hsome⟩ := exists_coordinates chain arguments.coordinates
          simp only [showRegistry_of_toLink hleaf hchain, ← after_saying]
          by_cases hlength : q.length = chain.length
          · have hposes := Chain.poses_eq_ok hlength
            refine ⟨0, _, .placed hleaf hmem hchain hnone hsome hposes ?_, ?_⟩
            · rw [Chain.length_accumulate, Chain.length_stages hlength]
            · rw [followChain_of_poses hnone hsome hposes, Outcome.saying, List.map_cons,
                List.map_zipWith]
              rfl
          · have hne : arguments.coordinates ≠ [] := by
              intro hnil
              exact hlength (by rw [hnone hnil, List.length_replicate])
            rw [hsome hne] at hlength
            refine ⟨1, _, .mismatched hleaf hmem hchain hne hlength, ?_⟩
            rw [followChain_of_length hne hlength]
            rfl

theorem filter_inertial_eq (made : Registry.Made robot presence pairs registry) :
    robot.links.filter (presence.inertial.contains ·.name) =
      robot.links.filter (registry.contains ·.name) := by
  apply List.filter_congr
  intro link hm
  rw [Bool.eq_iff_iff, List.contains_iff_mem, made.contains_iff]
  exact ⟨fun h => ⟨⟨link, hm, rfl⟩, h⟩, And.right⟩

theorem exists_reports (reader : Reader) (lookup : String → Except FileFault String)
    (arguments : Arguments) :
    ∃ status said, Reports reader lookup arguments status said ∧
      run reader lookup arguments = .saying status said := by
  rcases ofFile_cases reader lookup arguments.path with
    ⟨failure, hne, hfile⟩ | ⟨robot, presence, hd, hfile⟩
  · refine ⟨1, _, .refused (by rw [hfile]) hne, ?_⟩
    simp only [run, hfile]
    rfl
  · rw [Registry.ofRobot] at hfile
    have hpairs := reader.order.perm robot.pairs
    rcases Registry.ofPairs_notes robot presence hpairs with
      ⟨failure, hne, he⟩ | ⟨before, link, stops, he⟩ | ⟨registry, he⟩
    · rw [he] at hfile
      refine ⟨1, _, .refused (by rw [hfile]) hne, ?_⟩
      simp only [run, hfile]
      rfl
    · rw [he] at hfile
      have hwarnings := filterMap_notes robot presence (before ++ [link])
      rw [List.flatMap_append, List.flatMap_singleton, List.filterMap_append,
        filterMap_notes_of_mem robot stops.inertial, ← List.filterMap_append] at hwarnings
      refine ⟨1, _, .stopped (by rw [hfile]) hd stops, ?_⟩
      simp only [run, hfile, hwarnings, Outcome.saying, List.map_append]
      rfl
    · have made := Registry.made_of_ofPairs hpairs (congrArg Prod.snd he)
      obtain ⟨status, rest, hending, hshow⟩ := exists_ending made arguments
      rw [he] at hfile
      refine ⟨status, _, .listed (by rw [hfile]) hd (forall₂_entryLines made) hending, ?_⟩
      simp only [run, hfile, hshow, filterMap_notes, filter_inertial_eq made, after_saying]
      rw [length_entryLines made, listing, List.cons_append]

theorem Ending.status_cases {status : Nat} {rest : List Line}
    (h : Ending registry arguments status rest) :
    (status = 0 ∧ ∀ leaf, arguments.leaf = some leaf → registry.contains leaf = true ∧
      ∃ chain, Chain.toLink registry leaf = .ok chain ∧
        (arguments.coordinates.length = 0 ∨ arguments.coordinates.length = chain.length)) ∨
    (status = 1 ∧ ∃ leaf, arguments.leaf = some leaf ∧
      (registry.contains leaf = false ∨ ∃ chain, Chain.toLink registry leaf = .ok chain ∧
        arguments.coordinates.length ≠ 0 ∧ arguments.coordinates.length ≠ chain.length)) := by
  cases h with
  | plain hleaf => exact .inl ⟨rfl, by simp [hleaf]⟩
  | unknown hleaf hmem => exact .inr ⟨rfl, _, hleaf, .inl hmem⟩
  | mismatched hleaf _ hchain hne hlength =>
      have hpos := mt List.length_eq_zero_iff.mp hne
      exact .inr ⟨rfl, _, hleaf, .inr ⟨_, hchain, hpos, hlength⟩⟩
  | @placed leaf chain q poses hleaf hmem hchain _ hsome hposes _ =>
      refine .inl ⟨rfl, fun other hother => ?_⟩
      cases hleaf.symm.trans hother
      refine ⟨hmem, chain, hchain, ?_⟩
      by_cases hne : arguments.coordinates = []
      · exact .inl (by simp [hne])
      · refine .inr ?_
        by_contra hlength
        rw [hsome hne, Chain.poses_eq_error hlength] at hposes
        cases hposes

theorem Reports.status_cases {status : Nat} {said : List Line}
    (h : Reports reader lookup arguments status said) :
    (status = 0 ∧ Satisfiable reader lookup arguments) ∨
      (status = 1 ∧ ¬Satisfiable reader lookup arguments) := by
  cases h with
  | refused hfile _ =>
      refine .inr ⟨rfl, ?_⟩
      rintro ⟨registry, hok, -⟩
      cases hfile.symm.trans hok
  | stopped hfile _ _ =>
      refine .inr ⟨rfl, ?_⟩
      rintro ⟨registry, hok, -⟩
      cases hfile.symm.trans hok
  | listed hfile _ _ hending =>
      rcases hending.status_cases with ⟨hstatus, hall⟩ | ⟨hstatus, leaf, hleaf, hbad⟩
      · exact .inl ⟨hstatus, _, hfile, hall⟩
      · refine .inr ⟨hstatus, ?_⟩
        rintro ⟨other, hok, hall⟩
        cases hfile.symm.trans hok
        obtain ⟨hmem, chain, hchain, hlength⟩ := hall leaf hleaf
        rcases hbad with hmissing | ⟨found, hfound, hpos, hne⟩
        · simp [hmem] at hmissing
        · cases hchain.symm.trans hfound
          exact hlength.elim hpos hne

theorem run_nil {leaf : String} (hfile : (Registry.ofFile reader lookup arguments.path).2 = .ok registry)
    (hleaf : arguments.leaf = some leaf) (hchain : Chain.toLink registry leaf = .ok chain) :
    run reader lookup { arguments with coordinates := [] } =
      run reader lookup { arguments with coordinates := List.replicate chain.length 0.0 } := by
  simp only [run, hfile, showRegistry, hleaf, hchain, followChain_nil]

-- Every order of the pairs is the order of a reader, so what holds for all readers holds for it.
theorem exists_ofFile_eq (complain : String → String)
    (hd : Describes lookup arguments.path robot presence) (hpairs : pairs.Perm robot.pairs) :
    ∃ order, Registry.ofFile ⟨order, complain⟩ lookup arguments.path =
      Registry.ofPairs robot presence pairs := by
  obtain ⟨order, horder⟩ := Arrangement.exists_arrange hpairs
  exact ⟨order, by rw [hd.ofFile_eq, Registry.ofRobot, horder]⟩

-- Everything that can go wrong is found in its turn, and what was said before stays said. All of it
-- holds for each order in which the pairs can be gone through.
theorem run_outcome (reader : Reader) (lookup : String → Except FileFault String)
    (arguments : Arguments) :
    (∃ said, Reports reader lookup arguments (run reader lookup arguments).status said ∧
      List.Forall₂ Line.Reads said (run reader lookup arguments).lines ∧
      (run reader lookup arguments).lines.map firstWord = said.map Line.word) ∧
    ((run reader lookup arguments).status = 0 ↔ Satisfiable reader lookup arguments) ∧
    ((run reader lookup arguments).status = 0 ∨ (run reader lookup arguments).status = 1) ∧
    (∀ registry leaf chain, (Registry.ofFile reader lookup arguments.path).2 = .ok registry →
      arguments.leaf = some leaf → Chain.toLink registry leaf = .ok chain →
        run reader lookup { arguments with coordinates := [] } =
          run reader lookup { arguments with coordinates := List.replicate chain.length 0.0 }) ∧
    (∀ words, Arguments.read? words = some arguments →
      runWords reader lookup words = run reader lookup arguments) ∧
    ∀ robot presence pairs, Describes lookup arguments.path robot presence →
      pairs.Perm robot.pairs → ∃ order, Registry.ofFile ⟨order, reader.complain⟩ lookup
        arguments.path = Registry.ofPairs robot presence pairs := by
  obtain ⟨status, said, hreports, hrun⟩ := exists_reports reader lookup arguments
  have hlines : List.Forall₂ Line.Reads said (run reader lookup arguments).lines := by
    rw [Line.forall₂_reads_iff, hrun, Outcome.saying]
  have hstatus : (run reader lookup arguments).status = status := by rw [hrun, Outcome.saying]
  rw [hstatus]
  refine ⟨⟨said, hreports, hlines, Line.map_firstWord hlines⟩, ?_, ?_, fun _ _ _ => run_nil, ?_,
    fun _ _ _ => exists_ofFile_eq reader.complain⟩
  · rcases hreports.status_cases with ⟨hstatus, hgood⟩ | ⟨hstatus, hbad⟩
    · simp [hstatus, hgood]
    · simp [hstatus, hbad]
  · exact hreports.status_cases.imp And.left And.left
  · intro words hread
    rw [runWords, hread]

-- A box that is bolted to a rack by a joint of some kind, with its axis if there is one. The
-- characters come line by line, so that they are quick to tell apart.
def rackCharacters (kind axis : String) : List Char :=
  ["<robot name='r'><link name='rack'/>",
    "<link name='box'><inertial><mass value='1'/>",
    "<inertia ixx='1' ixy='0' ixz='0' iyy='1' iyz='0' izz='1'/>",
    "</inertial></link>",
    "<joint name='bolt' type='", kind, "'>",
    "<parent link='rack'/><child link='box'/>", axis, "</joint></robot>"].flatMap String.toList

def rack (kind axis : String) : String :=
  .ofList (rackCharacters kind axis)

def bolt (kind : JointKind) (axis : Option (Vec3 Float)) : Joint Float :=
  ⟨"bolt", kind, .here, "rack", "box", axis⟩

def rackRobot (bolt : Joint Float) : Robot Float where
  links := [⟨"rack", none⟩, ⟨"box", some ⟨.here, 1, ⟨1, 0, 0, 1, 0, 1⟩⟩⟩]
  joints := [bolt]

theorem read_rack_fixed :
    Description.read (rack "fixed" "") = .ok (rackRobot (bolt .fixed none), ⟨["box"], []⟩) :=
  Description.read_ofList (by decide +kernel) (by decide +kernel) (by decide +kernel)

theorem read_rack_planar : Description.read (rack "planar" "<axis xyz='0 0 0'/>") =
    .ok (rackRobot (bolt .planar (some .zero)), ⟨["box"], ["bolt"]⟩) :=
  Description.read_ofList (by decide +kernel) (by decide +kernel) (by decide +kernel)

theorem exists_ofRobot_rack : ∃ registry chain,
    (Registry.ofRobot .plain (rackRobot (bolt .fixed none)) ⟨["box"], []⟩).2 = .ok registry ∧
      registry.order = ["box"] ∧ (∀ name, registry.contains name = true ↔ name = "box") ∧
      Chain.toLink registry "box" = .ok chain ∧ chain.names = ["box"] := by
  have hshape : ((Registry.ofRobot .plain (rackRobot (bolt .fixed none)) ⟨["box"], []⟩).2 >>=
      fun registry => (Chain.toLink registry "box").map fun chain => (registry.order, chain.names)) =
        .ok (["box"], ["box"]) := by rfl
  cases hregistry : (Registry.ofRobot .plain (rackRobot (bolt .fixed none)) ⟨["box"], []⟩).2 with
  | error failure => simp [hregistry, bind, Except.bind] at hshape
  | ok registry =>
      have made := Registry.made_of_ofRobot hregistry
      cases hchain : Chain.toLink registry "box" with
      | error failure => simp [hregistry, hchain, bind, Except.bind, Except.map] at hshape
      | ok chain =>
          simp only [hregistry, hchain, bind, Except.bind, Except.map, Except.ok.injEq,
            Prod.mk.injEq] at hshape
          refine ⟨registry, chain, rfl, hshape.1, fun name => ?_, hchain, hshape.2⟩
          have hdeclares : name = "box" → (rackRobot (bolt .fixed none)).Declares name := fun h =>
            ⟨_, List.mem_cons_of_mem _ List.mem_cons_self, h.symm⟩
          simpa [made.contains_iff] using hdeclares

theorem Ending.eq_unknown {leaf : String} {status : Nat} {rest : List Line}
    (h : Ending registry arguments status rest) (hleaf : arguments.leaf = some leaf)
    (hmem : registry.contains leaf = false) : status = 1 ∧ rest = [.failure (.linkNotFound leaf)] := by
  cases h with
  | plain hnone => cases hnone.symm.trans hleaf
  | unknown hother _ =>
      cases hother.symm.trans hleaf
      exact ⟨rfl, rfl⟩
  | mismatched hother hheld =>
      cases hother.symm.trans hleaf
      cases hheld.symm.trans hmem
  | placed hother hheld =>
      cases hother.symm.trans hleaf
      cases hheld.symm.trans hmem

theorem Ending.eq_placed {leaf : String} {status : Nat} {rest : List Line}
    (h : Ending registry arguments status rest) (hleaf : arguments.leaf = some leaf)
    (hchain : Chain.toLink registry leaf = .ok chain) (hnil : arguments.coordinates = []) :
    status = 0 ∧ ∃ poses : List (Pose Float), poses.length = chain.length ∧
      rest = .chain chain :: List.zipWith .pose chain.names poses := by
  cases h with
  | plain hnone => cases hnone.symm.trans hleaf
  | unknown hother hmem =>
      cases hother.symm.trans hleaf
      cases (Chain.toLink_of_not_contains hmem).symm.trans hchain
  | mismatched _ _ _ hne => exact absurd hnil hne
  | placed hother _ hfound _ _ _ hlength =>
      cases hother.symm.trans hleaf
      cases hfound.symm.trans hchain
      exact ⟨rfl, _, hlength, rfl⟩

-- Whatever is asked of the rack with a fixed bolt, there is one warning and one entry.
theorem Reports.rack_fixed {leaf : Option String} {coordinates : List Float} {status : Nat}
    {said : List Line} {entry : Entry Float}
    (h : Reports .plain (fun _ => .ok (rack "fixed" "")) ⟨"rack.urdf", leaf, coordinates⟩ status said)
    (hregistry : (Registry.ofRobot .plain (rackRobot (bolt .fixed none)) ⟨["box"], []⟩).2 =
      .ok registry)
    (horder : registry.order = ["box"]) (hget : registry.get? "box" = some entry)
    (hbare : registry.contains "rack" = false) :
    ∃ rest, said = [.warning (bolt .fixed none), .read 1 "rack.urdf", .entry "box" entry] ++ rest ∧
      Ending registry ⟨"rack.urdf", leaf, coordinates⟩ status rest := by
  have hrack : Describes (fun _ => .ok (rack "fixed" "")) "rack.urdf" (rackRobot (bolt .fixed none))
      ⟨["box"], []⟩ := ⟨_, rfl, read_rack_fixed⟩
  have hfile := (congrArg Prod.snd (hrack.ofFile_eq .plain)).trans hregistry
  cases h with
  | refused he _ => cases he.symm.trans hfile
  | stopped he _ _ => cases he.symm.trans hfile
  | @listed robot presence other entries rest status hother hd hentries hending =>
      cases hother.symm.trans hfile
      obtain ⟨rfl, rfl⟩ := hrack.unique hd
      rw [horder] at hentries
      cases hentries with
      | cons hentry hnone =>
          cases hnone
          obtain ⟨found, hfound, rfl⟩ := hentry
          cases hget.symm.trans hfound
          have hbox : registry.contains "box" = true := Option.isSome_iff_exists.mpr ⟨entry, hget⟩
          refine ⟨rest, ?_, hending⟩
          simp [warnings, rackRobot, hbox, hbare, Robot.foldedJoint?, Robot.jointAbove?, bolt]

-- A bolt without a direction is warned of before it is refused.
theorem Reports.rack_planar {status : Nat} {said : List Line}
    (h : Reports .plain (fun _ => .ok (rack "planar" "<axis xyz='0 0 0'/>")) ⟨"rack.urdf", none, []⟩
      status said) :
    status = 1 ∧ said = [.warning (bolt .planar (some .zero)), .failure .degenerateAxis] := by
  have hrack : Describes (fun _ => .ok (rack "planar" "<axis xyz='0 0 0'/>")) "rack.urdf"
      (rackRobot (bolt .planar (some .zero))) ⟨["box"], ["bolt"]⟩ := ⟨_, rfl, read_rack_planar⟩
  have hregistry : (Registry.ofRobot .plain (rackRobot (bolt .planar (some .zero)))
      ⟨["box"], ["bolt"]⟩).2 = .error .degenerateAxis := by rfl
  have hfile := (congrArg Prod.snd (hrack.ofFile_eq .plain)).trans hregistry
  cases h with
  | refused he hne => exact absurd (Except.error.inj (he.symm.trans hfile)) hne
  | listed he _ _ _ => cases he.symm.trans hfile
  | @stopped robot presence before link _ hd stops =>
      obtain ⟨rfl, rfl⟩ := hrack.unique hd
      obtain ⟨after, hsplit⟩ := stops.split
      have hinertial := stops.inertial
      simp only [rackRobot] at hsplit
      rcases before with _ | ⟨first, _ | ⟨second, more⟩⟩
      · cases hsplit
        simp at hinertial
      · cases hsplit
        refine ⟨rfl, ?_⟩
        simp [warnings, rackRobot, Robot.foldedJoint?, Robot.jointAbove?, bolt]
      · simp at hsplit

-- The first run asks for a link that is not in the registry, the second one for the box, and the
-- third one is of a bolt without a direction.
theorem run_outcome_rack : ∃ entry pose,
    (run .plain (fun _ => .ok (rack "fixed" "")) ⟨"rack.urdf", some "rack", []⟩).status = 1 ∧
    (run .plain (fun _ => .ok (rack "fixed" "")) ⟨"rack.urdf", some "rack", []⟩).lines =
      ["WARN urdf_chain::utils: joint bolt of type Fixed is modelled as prismatic",
        "INFO urdf_chain: read 1 links from rack.urdf", entry,
        "ERROR urdf_chain: link not found: rack"] ∧
    (run .plain (fun _ => .ok (rack "fixed" "")) ⟨"rack.urdf", some "box", []⟩).status = 0 ∧
    (run .plain (fun _ => .ok (rack "fixed" "")) ⟨"rack.urdf", some "box", []⟩).lines =
      ["WARN urdf_chain::utils: joint bolt of type Fixed is modelled as prismatic",
        "INFO urdf_chain: read 1 links from rack.urdf", entry, "chain: box", pose] ∧
    (run .plain (fun _ => .ok (rack "fixed" "")) ⟨"rack.urdf", some "box", []⟩).lines.map firstWord =
      ["WARN", "INFO", "box", "chain:", "box"] ∧
    (run .plain (fun _ => .ok (rack "planar" "<axis xyz='0 0 0'/>")) ⟨"rack.urdf", none, []⟩).lines =
      ["WARN urdf_chain::utils: joint bolt of type Planar is modelled as prismatic",
        "ERROR urdf_chain: joint axis has zero length"] := by
  obtain ⟨registry, chain, hregistry, horder, hcontains, hchain, hnames⟩ := exists_ofRobot_rack
  obtain ⟨entry, hget⟩ := Option.isSome_iff_exists.mp ((hcontains "box").mpr rfl)
  have hbare : registry.contains "rack" = false := by
    rw [Bool.eq_false_iff, ne_eq, hcontains]
    decide
  have hwarning : (Line.warning (bolt .fixed none)).text =
    "WARN urdf_chain::utils: joint bolt of type Fixed is modelled as prismatic" := rfl
  have hread : (Line.read 1 "rack.urdf").text = "INFO urdf_chain: read 1 links from rack.urdf" := rfl
  have hfailure : (Line.failure (.linkNotFound "rack")).text =
    "ERROR urdf_chain: link not found: rack" := rfl
  have hplanar : (Line.warning (bolt .planar (some .zero))).text =
    "WARN urdf_chain::utils: joint bolt of type Planar is modelled as prismatic" := rfl
  have hdegenerate : (Line.failure .degenerateAxis).text =
    "ERROR urdf_chain: joint axis has zero length" := rfl
  have hnamed : (Line.chain chain).text = "chain: box" := by
    rw [Line.text, chainLine, hnames]
    rfl
  have hbox : firstWord "box" = "box" := rfl
  obtain ⟨⟨missed, hmissed, hmissedLines, -⟩, -⟩ :=
    run_outcome .plain (fun _ => .ok (rack "fixed" "")) ⟨"rack.urdf", some "rack", []⟩
  obtain ⟨⟨placed, hplaced, hplacedLines, hplacedWords⟩, -⟩ :=
    run_outcome .plain (fun _ => .ok (rack "fixed" "")) ⟨"rack.urdf", some "box", []⟩
  obtain ⟨⟨stopped, hstopped, hstoppedLines, -⟩, -⟩ :=
    run_outcome .plain (fun _ => .ok (rack "planar" "<axis xyz='0 0 0'/>")) ⟨"rack.urdf", none, []⟩
  obtain ⟨rest, rfl, hending⟩ := hmissed.rack_fixed hregistry horder hget hbare
  obtain ⟨more, rfl, hgoing⟩ := hplaced.rack_fixed hregistry horder hget hbare
  obtain ⟨hone, rfl⟩ := hending.eq_unknown rfl hbare
  obtain ⟨hzero, poses, hlength, rfl⟩ := hgoing.eq_placed rfl hchain rfl
  obtain ⟨-, rfl⟩ := hstopped.rack_planar
  have hsingle : poses.length = 1 := by
    rw [hlength, Chain.length, ← List.length_map Prod.fst]
    exact congrArg List.length hnames
  obtain ⟨pose, rfl⟩ := List.length_eq_one_iff.mp hsingle
  rw [hnames] at hplacedLines hplacedWords
  refine ⟨(Line.entry "box" entry).text, (Line.pose "box" pose).text, hone, ?_, hzero, ?_, ?_, ?_⟩
  · simp [Line.forall₂_reads_iff.mp hmissedLines, hwarning, hread, hfailure]
  · simp [Line.forall₂_reads_iff.mp hplacedLines, hwarning, hread, hnamed]
  · simp [hplacedWords, Line.word, hbox]
  · simp [Line.forall₂_reads_iff.mp hstoppedLines, hplanar, hdegenerate]

end Command

end Linkage
