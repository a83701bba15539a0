import Linkage.Chain
import Linkage.Proofs.Lineage.Route
import Linkage.Proofs.Registry.Representation

namespace Linkage

open Body Description Lineage

variable {α : Type} [Scalar α]

namespace Registry

variable {registry : Registry α}

-- The links of some names that have an entry, with their segments.
def members (registry : Registry α) (names : List String) : List (String × Segment α) :=
  names.filterMap fun name => (registry.get? name).map fun entry => (name, entry.segment)

omit [Scalar α] in
theorem members_concat {names : List String} {name : String} {entry : Entry α}
    (hget : registry.get? name = some entry) :
    registry.members (names ++ [name]) = registry.members names ++ [(name, entry.segment)] := by
  simp [members, hget]

omit [Scalar α] in
theorem map_some_members {names : List String}
    (hall : ∀ name ∈ names, registry.contains name = true) :
    (registry.members names).map some =
      names.map fun name => (registry.get? name).map fun entry => (name, entry.segment) := by
  induction names with
  | nil => rfl
  | cons name rest ih =>
      obtain ⟨entry, hget⟩ := Option.isSome_iff_exists.mp (hall name List.mem_cons_self)
      have hrest := ih fun other ho => hall other (List.mem_cons_of_mem _ ho)
      simp only [members, List.filterMap_cons, hget, Option.map_some, List.map_cons] at hrest ⊢
      rw [hrest]

omit [Scalar α] in
theorem map_fst_members {names : List String}
    (hall : ∀ name ∈ names, registry.contains name = true) :
    (registry.members names).map Prod.fst = names := by
  apply List.map_injective_iff.mpr fun _ _ => Option.some.inj
  have hmembers := congrArg (List.map (Option.map Prod.fst)) (map_some_members hall)
  rw [List.map_map, List.map_map] at hmembers
  rw [List.map_map]
  refine hmembers.trans (List.map_congr_left fun name hm => ?_)
  obtain ⟨entry, hget⟩ := Option.isSome_iff_exists.mp (hall name hm)
  simp [hget]

omit [Scalar α] in
theorem map_snd_members {names : List String}
    (hall : ∀ name ∈ names, registry.contains name = true) :
    ((registry.members names).map Prod.snd).map some =
      names.map fun name => (registry.get? name).map Entry.segment := by
  have hmembers := congrArg (List.map (Option.map Prod.snd)) (map_some_members hall)
  simpa [Function.comp_def] using hmembers

namespace Made

variable {robot : Robot α} {presence : Presence} {pairs : List (String × String)}

theorem parentOf?_eq_some_iff (made : Made robot presence pairs registry) {name parent : String}
    (hmem : registry.contains name = true) :
    registry.parentOf? name = some parent ↔ robot.Holds parent name := by
  obtain ⟨entry, hget⟩ := Option.isSome_iff_exists.mp hmem
  simpa [parentOf?, hget] using made.parent_eq_some_iff hget

-- Every link with an entry is led down to from the root.
theorem exists_route (made : Made robot presence pairs registry) {name : String}
    (hmem : registry.contains name = true) : ∃ root way, (robot.kinship pairs).Tree root ∧
      Route (robot.kinship pairs).Holds root way name := by
  have hdeclared := (made.contains_iff.mp hmem).1
  rcases made.links_or_tree with ⟨hl, -⟩ | ⟨root, tree, -⟩
  · simp [Robot.Declares, hl] at hdeclared
  · obtain ⟨n, hb⟩ := tree.reaches name (Robot.mem_kinship_links.mpr hdeclared)
    obtain ⟨way, hroute⟩ := hb.exists_route
    exact ⟨root, way, tree, hroute⟩

end Made

end Registry

namespace Chain

variable {robot : Robot α} {presence : Presence} {pairs : List (String × String)}
  {registry : Registry α} {root name : String} {way : List String}

-- The induction is on the way down: each link finds its parent where the way comes from, and
-- stops where that has no entry. Fuel for the links with an entry is enough.
theorem ascend_eq (made : Registry.Made robot presence pairs registry)
    (tree : (robot.kinship pairs).Tree root) (hroute : Route (robot.kinship pairs).Holds root way name)
    {entry : Entry α} (hget : registry.get? name = some entry) {fuel : Nat}
    (hfuel : (way.rtakeWhile registry.contains).length ≤ fuel) :
    ascend registry fuel name entry =
      .ok (registry.members (way.rtakeWhile registry.contains)).reverse := by
  have hholds := Robot.kinship_holds made.perm
  induction hroute generalizing entry fuel with
  | here =>
      have hroot : registry.contains root = true := Option.isSome_iff_exists.mpr ⟨entry, hget⟩
      have hparent : entry.parent = none :=
        (made.parent_eq_none_iff hget).mpr (made.roots_eq_iff.mpr tree)
      have htaken : [root].rtakeWhile registry.contains = [root] := by
        simp [List.rtakeWhile, hroot]
      rw [htaken] at hfuel ⊢
      obtain ⟨fuel, rfl⟩ := Nat.exists_eq_add_of_le' hfuel
      simp [ascend, hparent, Registry.members, hget]
      rfl
  | @step way parent child hroute hh ih =>
      have hchild : registry.contains child = true := Option.isSome_iff_exists.mpr ⟨entry, hget⟩
      have hparent : entry.parent = some parent :=
        (made.parent_eq_some_iff hget).mpr (hholds ▸ hh)
      rw [List.rtakeWhile_concat_pos _ _ _ hchild] at hfuel ⊢
      rw [Registry.members_concat hget]
      rw [List.length_append, List.length_singleton] at hfuel
      obtain ⟨fuel, rfl⟩ := Nat.exists_eq_add_of_le' (Nat.le_of_add_left_le hfuel)
      cases habove : registry.get? parent with
      | none =>
          have hnone : way.rtakeWhile registry.contains = [] :=
            hroute.rtakeWhile_eq_nil (by simp [Registry.contains, habove])
          simp [ascend, hparent, habove, hnone, Registry.members]
          rfl
      | some above =>
          have hrest := ih habove (Nat.le_of_add_le_add_right hfuel)
          simp [ascend, hparent, habove, hrest]

omit [Scalar α] in
theorem rtakeWhile_length_le (tree : (robot.kinship pairs).Tree root)
    (hroute : Route (robot.kinship pairs).Holds root way name) :
    (way.rtakeWhile registry.contains).length ≤ registry.size := by
  have hnodup : (way.rtakeWhile registry.contains).Nodup :=
    (hroute.nodup tree.acyclic).sublist (List.rtakeWhile_suffix _ _).sublist
  have hsubset : way.rtakeWhile registry.contains ⊆ registry.entries.map Prod.fst := by
    intro link hm
    exact (Registry.contains_iff_mem_keys link).mp (List.mem_rtakeWhile_imp hm)
  have hlength := (List.subperm_of_subset hnodup hsubset).length_le
  rwa [List.length_map] at hlength

-- A chain consists of the links with an entry that end the way from the root.
theorem toLink_eq (made : Registry.Made robot presence pairs registry)
    (tree : (robot.kinship pairs).Tree root)
    (hroute : Route (robot.kinship pairs).Holds root way name)
    (hmem : registry.contains name = true) :
    toLink registry name = .ok ⟨registry.members (way.rtakeWhile registry.contains)⟩ := by
  obtain ⟨entry, hget⟩ := Option.isSome_iff_exists.mp hmem
  have hmet := ascend_eq made tree hroute hget (rtakeWhile_length_le tree hroute)
  simp [toLink, hget, hmet]

omit [Scalar α] in
theorem contains_of_toLink {chain : Chain α} (h : toLink registry name = .ok chain) :
    registry.contains name = true := by
  cases hget : registry.get? name with
  | none => simp [toLink, hget] at h
  | some entry => exact Option.isSome_iff_exists.mpr ⟨entry, hget⟩

theorem exists_get?_of_toLink (made : Registry.Made robot presence pairs registry) {chain : Chain α}
    (h : toLink registry name = .ok chain) {segment : Segment α} (hm : segment ∈ chain.segments) :
    ∃ link entry, registry.get? link = some entry ∧ entry.segment = segment := by
  have hmem := contains_of_toLink h
  obtain ⟨root, way, tree, hroute⟩ := made.exists_route hmem
  cases (toLink_eq made tree hroute hmem).symm.trans h
  obtain ⟨member, hmember, rfl⟩ := List.mem_map.mp hm
  obtain ⟨link, -, hentry⟩ := List.mem_filterMap.mp hmember
  obtain ⟨entry, hlink, rfl⟩ := Option.map_eq_some_iff.mp hentry
  exact ⟨link, entry, hlink, rfl⟩

-- What can be said of the chain to a link that lies at the end of a way down from the root.
structure Assembled (robot : Robot α) (registry : Registry α) (way : List String) (name : String)
    (chain : Chain α) : Prop where
  names_suffix : chain.names <:+ way
  registered : ∀ link ∈ chain.names, registry.contains link = true
  longest : ∀ other, other <:+ way → (∀ link ∈ other, registry.contains link = true) →
    other <:+ chain.names
  ne_nil : chain.names ≠ []
  nodup : chain.names.Nodup
  getLast?_eq : chain.names.getLast? = some name
  parents : chain.names.IsChain fun parent link => registry.parentOf? link = some parent
  base : ∀ link parent, chain.names.head? = some link → registry.parentOf? link = some parent →
    registry.contains parent = false
  segments_eq : chain.segments.map some =
    chain.names.map fun link => (registry.get? link).map Entry.segment
  length_le : chain.length ≤ registry.size
  steps : ∀ entry fuel, registry.get? name = some entry → chain.length ≤ fuel →
    ascend registry fuel name entry = .ok chain.members.reverse
  complete_iff : (∀ above, robot.Ancestor above name → registry.contains above = true →
      above ∈ chain.names) ↔
    ∀ above below, [above, below].Sublist way → registry.contains above = true →
      registry.contains below = true

omit [Scalar α] in
theorem names_members {names : List String}
    (hall : ∀ link ∈ names, registry.contains link = true) :
    (⟨registry.members names⟩ : Chain α).names = names :=
  Registry.map_fst_members hall

omit [Scalar α] in
theorem contains_parent_head? (tree : (robot.kinship pairs).Tree root)
    (hroute : Route (robot.kinship pairs).Holds root way name) {names : List String}
    (hsuffix : names <:+ way) (hregistered : ∀ link ∈ names, registry.contains link = true)
    (hlongest : ∀ other, other <:+ way → (∀ link ∈ other, registry.contains link = true) →
      other <:+ names) {link parent : String} (hhead : names.head? = some link)
    (hh : (robot.kinship pairs).Holds parent link) : registry.contains parent = false := by
  obtain ⟨rest, rfl⟩ := List.head?_eq_some_iff.mp hhead
  have hlonger := tree.cons_suffix_route hroute hsuffix hh
  rw [Bool.eq_false_iff]
  intro hparent
  have hshorter := (hlongest _ hlonger (List.forall_mem_cons.mpr ⟨hparent, hregistered⟩)).length_le
  simp only [List.length_cons] at hshorter
  omega

-- Nothing with an entry is cut off from a link exactly if nothing without one lies between.
theorem complete_iff (made : Registry.Made robot presence pairs registry)
    (tree : (robot.kinship pairs).Tree root)
    (hroute : Route (robot.kinship pairs).Holds root way name) {names : List String}
    (hsuffix : names <:+ way) (hregistered : ∀ link ∈ names, registry.contains link = true)
    (hlongest : ∀ other, other <:+ way → (∀ link ∈ other, registry.contains link = true) →
      other <:+ names) :
    (∀ above, robot.Ancestor above name → registry.contains above = true → above ∈ names) ↔
      ∀ above below, [above, below].Sublist way → registry.contains above = true →
        registry.contains below = true := by
  have hancestor := Robot.kinship_ancestor made.perm
  have hordered : way.Pairwise robot.Ancestor := hancestor ▸ hroute.pairwise
  have hacyclic : ∀ link, ¬robot.Ancestor link link := hancestor ▸ tree.acyclic
  constructor
  · intro hall above below hsub habove
    have hab : robot.Ancestor above below := by
      simpa using hordered.sublist hsub
    have hbelow : below ∈ way := hsub.subset (by simp)
    have hname : robot.Ancestor above name := by
      rcases hroute.above_or_eq hbelow with hb | rfl
      · rw [← hancestor] at hab ⊢
        exact hab.trans hb
      · exact hab
    have hm := hall above hname habove
    obtain ⟨upper, rfl⟩ := hsuffix
    rcases List.mem_append.mp hbelow with hupper | hlower
    · have hba := (List.pairwise_append.mp hordered).2.2 below hupper above hm
      exact absurd (hab.trans hba) (hacyclic above)
    · exact hregistered below hlower
  · intro hall above hname habove
    have hm : above ∈ way := tree.mem_route hroute (hancestor ▸ hname)
    obtain ⟨upper, lower, hway⟩ := List.append_of_mem hm
    have hlower : above :: lower <:+ names := by
      apply hlongest
      · exact ⟨upper, hway.symm⟩
      · intro link hl
        rcases List.mem_cons.mp hl with rfl | hl
        · exact habove
        · have hpair : [above, link].Sublist (above :: lower) :=
            (List.singleton_sublist.mpr hl).cons_cons above
          exact hall above link (hpair.trans (hway ▸ List.sublist_append_right _ _)) habove
    exact hlower.subset List.mem_cons_self

theorem assembled (made : Registry.Made robot presence pairs registry)
    (tree : (robot.kinship pairs).Tree root)
    (hroute : Route (robot.kinship pairs).Holds root way name)
    (hmem : registry.contains name = true) :
    Assembled robot registry way name ⟨registry.members (way.rtakeWhile registry.contains)⟩ := by
  have hholds := Robot.kinship_holds made.perm
  have hsuffix : way.rtakeWhile registry.contains <:+ way := List.rtakeWhile_suffix _ _
  have hregistered : ∀ link ∈ way.rtakeWhile registry.contains, registry.contains link = true :=
    fun link hm => List.mem_rtakeWhile_imp hm
  have hlongest : ∀ other, other <:+ way → (∀ link ∈ other, registry.contains link = true) →
      other <:+ way.rtakeWhile registry.contains :=
    fun other hother hall => suffix_rtakeWhile hother hall
  have hlast : (way.rtakeWhile registry.contains).getLast? = some name := by
    cases hroute with
    | here => simp [List.rtakeWhile, hmem]
    | step _ _ => simp [hmem]
  have hnodup : (way.rtakeWhile registry.contains).Nodup :=
    (hroute.nodup tree.acyclic).sublist hsuffix.sublist
  have hheld : (way.rtakeWhile registry.contains).IsChain robot.Holds :=
    (hholds ▸ hroute.isChain).suffix hsuffix
  have hlength : (way.rtakeWhile registry.contains).length ≤ registry.size :=
    rtakeWhile_length_le tree hroute
  have hcomplete := complete_iff made tree hroute hsuffix hregistered hlongest
  have hnames := names_members hregistered
  have hcount : (⟨registry.members (way.rtakeWhile registry.contains)⟩ : Chain α).length =
      (way.rtakeWhile registry.contains).length := by
    rw [length, ← List.length_map Prod.fst, Registry.map_fst_members hregistered]
  exact {
    names_suffix := by rwa [hnames]
    registered := by rwa [hnames]
    longest := by rwa [hnames]
    ne_nil := by
      rw [hnames]
      rintro he
      simp [he] at hlast
    nodup := by rwa [hnames]
    getLast?_eq := by rwa [hnames]
    parents := by
      rw [hnames]
      exact hheld.imp_of_mem_imp fun parent link _ hm hh =>
        (made.parentOf?_eq_some_iff (hregistered link hm)).mpr hh
    base := by
      rw [hnames]
      intro link parent hhead hparent
      have hm := hregistered link (List.mem_of_head? hhead)
      have hh : (robot.kinship pairs).Holds parent link :=
        hholds ▸ (made.parentOf?_eq_some_iff hm).mp hparent
      exact contains_parent_head? tree hroute hsuffix hregistered hlongest hhead hh
    segments_eq := by
      rw [hnames]
      exact Registry.map_snd_members hregistered
    length_le := by rwa [hcount]
    steps := by
      intro entry fuel hget hfuel
      rw [hcount] at hfuel
      exact ascend_eq made tree hroute hget hfuel
    complete_iff := by rwa [hnames] }

-- The guard against going round never strikes: a chain is found for each link with an entry, and it
-- is what of the way from the root to the link can be gone up without meeting a link without one.
theorem toLink_assembled (robot : Robot α) (presence : Presence) (pairs : List (String × String))
    (hpairs : pairs.Perm robot.pairs) (registry : Registry α)
    (h : (Registry.ofPairs robot presence pairs).2 = .ok registry) (name : String) :
    ((∃ chain, toLink registry name = .ok chain) ↔ registry.contains name = true) ∧
    (registry.contains name = false → toLink registry name = .error (.linkNotFound name)) ∧
    (∀ link, toLink registry name ≠ .error (.cycle link)) ∧
    ∀ chain, toLink registry name = .ok chain → ∃ root way,
      robot.roots = [root] ∧ Route robot.Holds root way name ∧
      (∀ other, Route robot.Holds root other name → other = way) ∧
      Assembled robot registry way name chain := by
  have made := Registry.made_of_ofPairs hpairs h
  have hholds := Robot.kinship_holds hpairs
  cases hmem : registry.contains name with
  | false =>
      have hnone : registry.get? name = none := by simpa [Registry.contains] using hmem
      have hfound : toLink registry name = .error (.linkNotFound name) := by
        simp only [toLink, hnone]
        rfl
      simp [hfound]
  | true =>
      obtain ⟨root, way, tree, hroute⟩ := made.exists_route hmem
      have hchain := toLink_eq made tree hroute hmem
      refine ⟨by simp [hchain], by simp, by simp [hchain], ?_⟩
      intro chain hok
      cases hchain.symm.trans hok
      refine ⟨root, way, made.roots_eq_iff.mpr tree, hholds ▸ hroute, ?_, assembled made tree hroute hmem⟩
      intro other hother
      exact tree.route_unique (hholds ▸ hother) hroute

-- A crane whose hook hangs on a bare trolley. Neither the ground nor the trolley has inertial data.
def crane : Robot Float where
  links := [⟨"ground", none⟩, ⟨"hook", none⟩, ⟨"tower", none⟩, ⟨"load", none⟩, ⟨"trolley", none⟩]
  joints := [⟨"rope", .prismatic, .here, "trolley", "hook", none⟩,
    ⟨"rail", .prismatic, .here, "tower", "trolley", none⟩,
    ⟨"sling", .fixed, .here, "hook", "load", none⟩,
    ⟨"anchor", .fixed, .here, "ground", "tower", none⟩]

def craneInertial : Presence :=
  ⟨["load", "tower", "hook"], []⟩

theorem toLink_assembled_crane :
    crane.pairs.reverse.Perm crane.pairs ∧ ∃ registry chain way,
      (Registry.ofPairs crane craneInertial crane.pairs.reverse).2 = .ok registry ∧
      toLink registry "load" = .ok chain ∧ chain.names = ["hook", "load"] ∧
      Assembled crane registry way "load" chain ∧ crane.Ancestor "tower" "load" ∧
      registry.contains "tower" = true := by
  have hpairs : crane.pairs.reverse.Perm crane.pairs := List.reverse_perm _
  have hnames : ((Registry.ofPairs crane craneInertial crane.pairs.reverse).2 >>= fun registry =>
      (toLink registry "load").map names) = .ok ["hook", "load"] := by rfl
  have hancestor : crane.Ancestor "tower" "load" :=
    .tail (.tail (.single ⟨_, List.mem_cons_of_mem _ List.mem_cons_self, rfl, rfl⟩)
      ⟨_, List.mem_cons_self, rfl, rfl⟩)
      ⟨_, List.mem_cons_of_mem _ (List.mem_cons_of_mem _ List.mem_cons_self), rfl, rfl⟩
  cases hregistry : (Registry.ofPairs crane craneInertial crane.pairs.reverse).2 with
  | error failure => simp [hregistry, bind, Except.bind] at hnames
  | ok registry =>
      cases hchain : toLink registry "load" with
      | error failure => simp [hregistry, hchain, bind, Except.bind, Except.map] at hnames
      | ok chain =>
          simp only [hregistry, hchain, bind, Except.bind, Except.map, Except.ok.injEq] at hnames
          obtain ⟨-, -, -, hall⟩ :=
            toLink_assembled crane craneInertial _ hpairs registry hregistry "load"
          obtain ⟨root, way, -, -, -, hassembled⟩ := hall chain hchain
          have htower : registry.contains "tower" = true := by
            rw [(Registry.made_of_ofPairs hpairs hregistry).contains_iff]
            unfold Robot.Declares
            decide
          exact ⟨hpairs, registry, chain, way, rfl, hchain, hnames, hassembled, hancestor, htower⟩

end Chain

end Linkage
