import Linkage.Proofs.Description.Links
import Linkage.Proofs.Registry.Axes

namespace Linkage.Registry

open Body Description Markup

-- What a document tells of its links by plain attributes: the name of each, if it has one, and
-- whether it holds inertial data.
def linkOutline (document : Element) : List (Option String × Bool) :=
  (childrenNamed document ["link"]).map fun link =>
    (link.plainAttribute? "name", !(childrenNamed link ["inertial"]).isEmpty)

theorem mem_linkOutline {document : Element} {name : String} :
    (some name, true) ∈ linkOutline document ↔ ∃ link ∈ childrenNamed document ["link"],
      childrenNamed link ["inertial"] ≠ [] ∧ link.plainAttribute? "name" = some name := by
  simp [linkOutline, and_comm]

theorem mem_inertial_ofRoot {root : Element} {name : String} :
    name ∈ (Presence.ofRoot root).inertial ↔ (some name, true) ∈ linkOutline root := by
  rw [mem_linkOutline]
  refine Presence.mem_namesHolding.trans ?_
  simp [childrenNamed, and_assoc]

-- Links of different names are read of different elements, and a name that is found is the one that is
-- read. So a link's name and its own inertial data are found together or not at all.
theorem mem_linkOutline_iff {found element : Element} {robot : Robot Float} {link : Link Float}
    (hlinks : List.Forall₂ ReadsLink (childrenNamed found ["link"]) robot.links)
    (hdistinct : (robot.links.map Link.name).Nodup)
    (hzip : (element, link) ∈ (childrenNamed found ["link"]).zip robot.links) :
    (some link.name, true) ∈ linkOutline found ↔
      childrenNamed element ["inertial"] ≠ [] ∧ element.plainAttribute? "name" = some link.name := by
  rw [mem_linkOutline]
  constructor
  · rintro ⟨other, hm, hheld, hplain⟩
    obtain ⟨hlength, hreads⟩ := List.forall₂_iff_zip.mp hlinks
    have hzipped : List.Forall₂ (fun e l => (e, l) ∈ (childrenNamed found ["link"]).zip robot.links)
        (childrenNamed found ["link"]) robot.links := List.forall₂_iff_zip.mpr ⟨hlength, id⟩
    obtain ⟨read, -, hread⟩ := exists_of_forall₂ hzipped hm
    have hbase : other.name.base = "link" := by simpa [childrenNamed] using (List.mem_filter.mp hm).2
    have hname : read.name = link.name := (hreads hread).name_eq (by simp [hbase]) hplain
    have hnames : (((childrenNamed found ["link"]).zip robot.links).map fun p => p.2.name).Nodup := by
      have hsnd := List.map_snd_zip hlength.ge
      rw [← hsnd, List.map_map] at hdistinct
      exact hdistinct
    cases List.inj_on_of_nodup_map hnames hread hzip hname
    exact ⟨hheld, hplain⟩
  · rintro ⟨hheld, hplain⟩
    exact ⟨element, (List.of_mem_zip hzip).1, hheld, hplain⟩

-- What is stored of a link is its own: nothing of what holds it goes into its mass, its center or its
-- inertia.
theorem body_of_segment? {α : Type} [Scalar α] {robot : Robot α} {presence : Presence} {link : Link α}
    {segment : Segment α} (h : robot.segment? presence link = some segment) :
    segment.body.mass = (link.inertial.getD .none).mass ∧
      segment.body.center = (link.inertial.getD .none).origin.pose ∧
      segment.body.inertia = (link.inertial.getD .none).moments.matrix := by
  obtain ⟨-, -, -, -, hmass, hcenter, hinertia⟩ := Segment.make?_eq_some_iff.mp h
  exact ⟨hmass, hcenter, hinertia⟩

-- A link has an entry exactly if its name is the plain attribute of an element for a link that holds
-- inertial data. Its own element need not be that one, nor does it have to have such an attribute: the
-- two ways of reading a text have nothing but names in common. Whatever is stored is of its own element.
theorem ofText_contains_iff (reader : Reader) (text : String) (registry : Registry Float)
    (h : (ofText reader text).2 = .ok registry) :
    ∃ found root robot presence,
      Lenient.document? text = some found ∧ Strict.document? text = some root ∧
      Description.read text = .ok (robot, presence) ∧
      List.Forall₂ ReadsLink (childrenNamed found ["link"]) robot.links ∧
      (∀ name, registry.contains name = true → ∃ link ∈ robot.links, link.name = name) ∧
      ∀ element link, (element, link) ∈ (childrenNamed found ["link"]).zip robot.links →
        List.Forall₂ (Reads readInertial) (childrenNamed element ["inertial"]) link.inertial.toList ∧
        (registry.contains link.name = true ↔ (some link.name, true) ∈ linkOutline root) ∧
        (linkOutline found = linkOutline root → (registry.contains link.name = true ↔
          childrenNamed element ["inertial"] ≠ [] ∧
            element.plainAttribute? "name" = some link.name)) ∧
        ∀ entry, registry.get? link.name = some entry →
          ∃ inertial, link.inertial.getD .none = inertial ∧
            entry.segment.body.mass = inertial.mass ∧
            entry.segment.body.center = inertial.origin.pose ∧
            entry.segment.body.inertia =
              .ofRows inertial.moments.xx inertial.moments.xy inertial.moments.xz
                inertial.moments.xy inertial.moments.yy inertial.moments.yz
                inertial.moments.xz inertial.moments.yz inertial.moments.zz ∧
            entry.segment.body.inertia.transpose = entry.segment.body.inertia := by
  obtain ⟨robot, presence, hread, hregistry⟩ := ofText_eq_ok_iff.mp h
  obtain ⟨found, root, hfound, hroot, hrobot, rfl⟩ := read_eq_ok_iff.mp hread
  have hlinks := forall₂_readsLink hrobot
  have made := made_of_ofRobot hregistry
  refine ⟨found, root, robot, .ofRoot root, hfound, hroot, hread, hlinks, ?_, ?_⟩
  · intro name hmem
    exact (made.contains_iff.mp hmem).1
  · intro element link hzip
    have hm := (List.of_mem_zip hzip).2
    have hcontains : registry.contains link.name = true ↔
        (some link.name, true) ∈ linkOutline root := by
      rw [made.contains_iff, mem_inertial_ofRoot]
      exact and_iff_right ⟨link, hm, rfl⟩
    refine ⟨(List.forall₂_zip hlinks hzip).forall₂_inertial, hcontains, ?_, ?_⟩
    · intro heq
      rw [hcontains, ← heq]
      exact mem_linkOutline_iff hlinks made.distinct hzip
    · intro entry hget
      obtain ⟨other, hother, hname, hsegment, -⟩ := made.exists_link hget
      cases List.inj_on_of_nodup_map made.distinct hother hm hname
      obtain ⟨hmass, hcenter, hinertia⟩ := body_of_segment? hsegment
      exact ⟨_, rfl, hmass, hcenter, hinertia, by rw [hinertia]; rfl⟩

-- A cart on a bare rail, with its name in an attribute that is called so, and one number for its mass
-- and for its moments. The characters come line by line, so that they are quick to tell apart.
def cartCharacters (label number : String) : List Char :=
  ["<robot name='r' xmlns:x='urn:x'><link name='rail'/><link ", label, "='cart'><inertial>",
    "<mass value='", number, "'/><inertia ixx='", number, "' ixy='0' ixz='0' iyy='", number,
    "' iyz='0' izz='", number, "'/></inertial></link><joint name='j' type='prismatic'>",
    "<parent link='rail'/><child link='cart'/></joint></robot>"].flatMap String.toList

def cart (label number : String) : String :=
  .ofList (cartCharacters label number)

def cartRobot (number : Float) : Robot Float where
  links := [⟨"rail", none⟩, ⟨"cart", some ⟨.here, number, ⟨number, 0, 0, number, 0, number⟩⟩⟩]
  joints := [⟨"j", .prismatic, .here, "rail", "cart", none⟩]

theorem read_cart : Description.read (cart "name" "0") = .ok (cartRobot 0, ⟨["cart"], []⟩) :=
  read_ofList (by decide +kernel) (by decide +kernel) (by decide +kernel)

theorem read_cart_qualified : Description.read (cart "x:name" "1") = .ok (cartRobot 1, ⟨[], []⟩) :=
  read_ofList (by decide +kernel) (by decide +kernel) (by decide +kernel)

theorem linkOutline_cart :
    (Lenient.document? (cart "name" "0")).map linkOutline =
        some [(some "rail", false), (some "cart", true)] ∧
      (Strict.document? (cart "name" "0")).map linkOutline =
        some [(some "rail", false), (some "cart", true)] := by
  have hdeclared : Strict.afterDeclaration? (cartCharacters "name" "0") = none := by decide +kernel
  rw [cart, lenient_ofList, strict_ofList hdeclared]
  decide +kernel

-- A link without mass has an entry, as long as its inertial data are written.
theorem ofText_contains_iff_cart : ∃ registry found root entry,
    (ofText .plain (cart "name" "0")).2 = .ok registry ∧
      Lenient.document? (cart "name" "0") = some found ∧
      Strict.document? (cart "name" "0") = some root ∧ linkOutline found = linkOutline root ∧
      registry.get? "cart" = some entry ∧ entry.segment.body.mass = 0 := by
  have hok : (ofRobot .plain (cartRobot 0) ⟨["cart"], []⟩).2.isOk = true := by rfl
  obtain ⟨registry, hregistry⟩ := exists_of_isOk hok
  have htext : (ofText .plain (cart "name" "0")).2 = .ok registry :=
    ofText_eq_ok_iff.mpr ⟨_, _, read_cart, hregistry⟩
  obtain ⟨found, root, robot, presence, hfound, hroot, hread, hlinks, -, hall⟩ :=
    ofText_contains_iff .plain (cart "name" "0") registry htext
  cases read_cart.symm.trans hread
  have houtline := linkOutline_cart
  simp only [hfound, hroot, Option.map_some, Option.some.injEq] at houtline
  obtain ⟨hlenient, hstrict⟩ := houtline
  generalize childrenNamed found ["link"] = elements at hlinks hall
  cases hlinks with
  | cons hrail hcarts =>
      cases hcarts with
      | cons hcart hrest =>
          obtain ⟨-, hcontains, -, hentry⟩ := hall _ _ (List.mem_cons_of_mem _ List.mem_cons_self)
          have hmem := hcontains.mpr (by simp [hstrict])
          obtain ⟨entry, hget⟩ := Option.isSome_iff_exists.mp hmem
          obtain ⟨inertial, rfl, hmass, -⟩ := hentry entry hget
          exact ⟨registry, found, root, entry, htext, hfound, hroot, hlenient.trans hstrict.symm,
            hget, hmass⟩

-- A link with a mass is passed over, though its own element holds its inertial data.
theorem ofText_cart_pruned : ∃ registry found element link,
    (ofText .plain (cart "x:name" "1")).2 = .ok registry ∧
      Lenient.document? (cart "x:name" "1") = some found ∧
      (element, link) ∈ (childrenNamed found ["link"]).zip (cartRobot 1).links ∧
      ReadsLink element link ∧ link.name = "cart" ∧
      link.inertial.map Inertial.mass = some 1 ∧ childrenNamed element ["inertial"] ≠ [] ∧
      registry.contains link.name = false := by
  have hok : (ofRobot .plain (cartRobot 1) ⟨[], []⟩).2.isOk = true := by rfl
  obtain ⟨registry, hregistry⟩ := exists_of_isOk hok
  have htext : (ofText .plain (cart "x:name" "1")).2 = .ok registry :=
    ofText_eq_ok_iff.mpr ⟨_, _, read_cart_qualified, hregistry⟩
  have made := made_of_ofRobot hregistry
  have hpruned : registry.contains "cart" = false := by
    rw [Bool.eq_false_iff, ne_eq, made.contains_iff]
    simp
  obtain ⟨found, root, hfound, -, hrobot, -⟩ := read_eq_ok_iff.mp read_cart_qualified
  have hlinks := forall₂_readsLink hrobot
  generalize hnamed : childrenNamed found ["link"] = elements at hlinks
  cases hlinks with
  | cons hrail hcarts =>
      cases hcarts with
      | @cons element link rest others hcart hrest =>
          have hheld : childrenNamed element ["inertial"] ≠ [] := by
            intro hnone
            have hinertial := hcart.forall₂_inertial
            rw [hnone, List.forall₂_nil_left_iff] at hinertial
            simp at hinertial
          refine ⟨registry, found, element, _, htext, hfound, ?_, hcart, rfl, rfl, hheld, hpruned⟩
          rw [hnamed]
          exact List.mem_cons_of_mem _ List.mem_cons_self

end Linkage.Registry
