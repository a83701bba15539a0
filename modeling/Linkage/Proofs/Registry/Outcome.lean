import Linkage.Proofs.Registry.Enrolment

namespace Linkage.Registry

open Description Lineage

variable {α : Type} [Scalar α]

-- What can become of a robot. The cases exclude each other, in the order in which the checks are
-- made; that links without a root come to nothing else is among them.
inductive Verdict (robot : Robot α) (presence : Presence) : Except Failure (Registry α) → Prop where
  | multipleParents {link : String} :
      robot.HeldTwice link → Verdict robot presence (.error (.multipleParents link))
  | duplicateLink {name : String} :
      (∀ link, ¬robot.HeldTwice link) → robot.NamedTwice name →
        Verdict robot presence (.error (.duplicateLink name))
  | danglingChild {parent link : String} :
      (∀ link, ¬robot.HeldTwice link) → (∀ name, ¬robot.NamedTwice name) →
        robot.Holds parent link → ¬robot.Declares link →
          Verdict robot presence (.error (.danglingChild link))
  | danglingParent {parent link : String} :
      (∀ link, ¬robot.HeldTwice link) → (∀ name, ¬robot.NamedTwice name) →
        robot.Holds parent link → robot.Declares link → ¬robot.Declares parent →
          Verdict robot presence (.error (.danglingParent link parent))
  | cycle {link : String} :
      (∀ link, ¬robot.HeldTwice link) → (∀ name, ¬robot.NamedTwice name) → ¬robot.Dangles →
        robot.Ancestor link link → Verdict robot presence (.error (.cycle link))
  | multipleRoots :
      (∀ link, ¬robot.HeldTwice link) → (∀ name, ¬robot.NamedTwice name) → ¬robot.Dangles →
        (∀ link, ¬robot.Ancestor link link) → 1 < robot.roots.length →
          Verdict robot presence (.error (.multipleRoots robot.roots))
  | degenerateAxis :
      (∀ link, ¬robot.HeldTwice link) → (∀ name, ¬robot.NamedTwice name) → ¬robot.Dangles →
        (∀ link, ¬robot.Ancestor link link) → robot.roots.length ≤ 1 →
          Directionless robot presence → Verdict robot presence (.error .degenerateAxis)
  | registered {registry : Registry α} :
      (∀ link, ¬robot.HeldTwice link) → (∀ name, ¬robot.NamedTwice name) → ¬robot.Dangles →
        (∀ link, ¬robot.Ancestor link link) → robot.roots.length ≤ 1 →
          ¬Directionless robot presence → Verdict robot presence (.ok registry)

variable {robot : Robot α} {presence : Presence} {pairs : List (String × String)}

theorem ofPairs_of_order_error {failure : Failure} (h : robot.order pairs = .error failure) :
    (ofPairs robot presence pairs).2 = .error failure := by
  simp [ofPairs, h]

theorem ofPairs_of_order_ok {levels : List (List String)} (h : robot.order pairs = .ok levels) :
    (ofPairs robot presence pairs).2 = (enroll robot presence robot.links).2.map fun entries =>
      ⟨entries, levels.map (·.filter ((entries.map Prod.fst).contains ·))⟩ := by
  simp [ofPairs, h]

theorem verdict_of_order_ok {levels : List (List String)} (h : robot.order pairs = .ok levels)
    (hchildren : ∀ link, ¬robot.HeldTwice link) (hnames : ∀ name, ¬robot.NamedTwice name)
    (hdangles : ¬robot.Dangles) (hacyclic : ∀ link, ¬robot.Ancestor link link)
    (hroots : robot.roots.length ≤ 1) : Verdict robot presence (ofPairs robot presence pairs).2 := by
  rw [ofPairs_of_order_ok h]
  rcases enroll_links_cases robot presence with ⟨he, hbad⟩ | ⟨he, hgood⟩
  · rw [he]
    exact .degenerateAxis hchildren hnames hdangles hacyclic hroots hbad
  · rw [he]
    exact .registered hchildren hnames hdangles hacyclic hroots hgood

theorem ofPairs_verdict (hpairs : pairs.Perm robot.pairs) :
    Verdict robot presence (ofPairs robot presence pairs).2 := by
  rcases robot.order_cases pairs with ⟨link, he, hd⟩ | ⟨name, he, hchildren, hd⟩ | ⟨he, hchildren, hnames⟩
  · rw [ofPairs_of_order_error he]
    exact .multipleParents hd
  · rw [ofPairs_of_order_error he]
    exact .duplicateLink hchildren hd
  · have hsingle := Robot.kinship_singleParents hpairs (Robot.forall_not_heldTwice_iff.mp hchildren)
    have hverdict := Kinship.order_verdict (Robot.forall_not_namedTwice_iff.mp hnames) hsingle
    have hholds := Robot.kinship_holds hpairs
    have hdeclared := Robot.kinship_declared_iff hpairs
    have hancestor := Robot.kinship_ancestor hpairs
    have hroots := Robot.kinship_roots hpairs
    generalize (robot.kinship pairs).order = result at he hverdict
    cases hresult : result with
    | ok levels =>
        rw [hresult] at he hverdict
        obtain ⟨hd, hacyclic, hone⟩ := hverdict.sound
        rw [Kinship.Acyclic, hancestor] at hacyclic
        exact verdict_of_order_ok he hchildren hnames (hdeclared.mp hd) hacyclic (hroots ▸ hone)
    | error failure =>
        rw [hresult] at he hverdict
        rw [ofPairs_of_order_error he]
        cases hverdict with
        | danglingChild hh hc =>
            rw [Robot.mem_kinship_links] at hc
            exact .danglingChild hchildren hnames (hholds ▸ hh) hc
        | danglingParent hh hc hp =>
            rw [Robot.mem_kinship_links] at hc hp
            exact .danglingParent hchildren hnames (hholds ▸ hh) hc hp
        | cycle hd hcycle =>
            exact .cycle hchildren hnames (hdeclared.mp hd) (hancestor ▸ hcycle)
        | multipleRoots hd hacyclic hmany =>
            rw [Kinship.Acyclic, hancestor] at hacyclic
            rw [hroots] at hmany ⊢
            exact .multipleRoots hchildren hnames (hdeclared.mp hd) hacyclic hmany

-- The checks and what they find. Each is the outcome exactly if those before it found nothing, and
-- what it names is at fault.
theorem ofPairs_outcome (robot : Robot α) (presence : Presence) (pairs : List (String × String))
    (hpairs : pairs.Perm robot.pairs) :
    let result := (ofPairs robot presence pairs).2
    ((∃ link, result = .error (.multipleParents link)) ↔ ∃ link, robot.HeldTwice link) ∧
    (∀ link, result = .error (.multipleParents link) → robot.HeldTwice link) ∧
    ((¬∃ link, robot.HeldTwice link) →
      ((∃ name, result = .error (.duplicateLink name)) ↔ ∃ name, robot.NamedTwice name) ∧
      (∀ name, result = .error (.duplicateLink name) → robot.NamedTwice name) ∧
      ((¬∃ name, robot.NamedTwice name) →
        ((∃ link, result = .error (.danglingChild link)) ∨
          (∃ link parent, result = .error (.danglingParent link parent)) ↔ robot.Dangles) ∧
        (∀ link, result = .error (.danglingChild link) →
          (∃ parent, robot.Holds parent link) ∧ ¬robot.Declares link) ∧
        (∀ link parent, result = .error (.danglingParent link parent) →
          robot.Holds parent link ∧ robot.Declares link ∧ ¬robot.Declares parent) ∧
        (¬robot.Dangles →
          ((∃ link, result = .error (.cycle link)) ↔ ∃ link, robot.Ancestor link link) ∧
          (∀ link, result = .error (.cycle link) → robot.Declares link ∧ robot.Ancestor link link) ∧
          ((¬∃ link, robot.Ancestor link link) →
            ((∃ names, result = .error (.multipleRoots names)) ↔ 1 < robot.roots.length) ∧
            (∀ names, result = .error (.multipleRoots names) → names = robot.roots) ∧
            (¬1 < robot.roots.length →
              (result = .error .degenerateAxis ↔ Directionless robot presence) ∧
              (¬Directionless robot presence → ∃ registry, result = .ok registry)))))) := by
  intro result
  have hverdict : Verdict robot presence result := ofPairs_verdict hpairs
  clear_value result
  cases hverdict with
  | @multipleParents link hheld =>
      have hsome : ∃ link, robot.HeldTwice link := ⟨link, hheld⟩
      simp [hsome, hheld]
  | @duplicateLink name hchildren hnamed =>
      have hsome : ∃ name, robot.NamedTwice name := ⟨name, hnamed⟩
      simp [hchildren, hsome, hnamed]
  | @danglingChild parent link hchildren hnames hh hchild =>
      have hdangles := Robot.dangles_of_child hh hchild
      have hsome : ∃ parent, robot.Holds parent link := ⟨parent, hh⟩
      simp [hchildren, hnames, hdangles, hsome, hchild]
  | @danglingParent parent link hchildren hnames hh hchild hparent =>
      have hdangles := Robot.dangles_of_parent hh hparent
      simp [hchildren, hnames, hdangles, hh, hchild, hparent]
  | @cycle link hchildren hnames hdangles hcycle =>
      have hsome : ∃ link, robot.Ancestor link link := ⟨link, hcycle⟩
      have hdeclared := Robot.declares_of_ancestor hdangles hcycle
      simp [hchildren, hnames, hdangles, hsome, hcycle, hdeclared]
  | multipleRoots hchildren hnames hdangles hacyclic hmany =>
      simp [hchildren, hnames, hdangles, hacyclic, hmany]
  | degenerateAxis hchildren hnames hdangles hacyclic hone hbad =>
      simp [hchildren, hnames, hdangles, hacyclic, hone, hbad]
  | registered hchildren hnames hdangles hacyclic hone hgood =>
      simp [hchildren, hnames, hdangles, hacyclic, hone, hgood]

-- Two wheels that hold each other, beside a cart and a crate that nothing holds.
def wheels : Robot Float where
  links := [⟨"cart", none⟩, ⟨"front", none⟩, ⟨"rear", none⟩, ⟨"crate", none⟩]
  joints := [⟨"axle", .fixed, .here, "front", "rear", none⟩,
    ⟨"belt", .fixed, .here, "rear", "front", none⟩]

theorem ofPairs_wheels :
    wheels.pairs.reverse.Perm wheels.pairs ∧ wheels.roots = ["cart", "crate"] ∧
      ∃ link, wheels.Ancestor link link ∧
        (ofPairs wheels ⟨[], []⟩ wheels.pairs.reverse).2 = .error (.cycle link) := by
  have hpairs : wheels.pairs.reverse.Perm wheels.pairs := List.reverse_perm _
  have hchildren : ¬∃ link, wheels.HeldTwice link :=
    not_exists.mpr (Robot.forall_not_heldTwice_iff.mpr (by decide))
  have hnames : ¬∃ name, wheels.NamedTwice name :=
    not_exists.mpr (Robot.forall_not_namedTwice_iff.mpr (by decide))
  have hdangles : ¬wheels.Dangles := by
    unfold Robot.Dangles Robot.Declares
    decide
  have hcycle : wheels.Ancestor "front" "front" :=
    .tail (.single ⟨_, List.mem_cons_self, rfl, rfl⟩)
      ⟨_, List.mem_cons_of_mem _ List.mem_cons_self, rfl, rfl⟩
  obtain ⟨-, -, hafter⟩ := ofPairs_outcome wheels ⟨[], []⟩ _ hpairs
  obtain ⟨-, -, hafter⟩ := hafter hchildren
  obtain ⟨-, -, -, hafter⟩ := hafter hnames
  obtain ⟨hiff, htrue, -⟩ := hafter hdangles
  obtain ⟨link, he⟩ := hiff.mpr ⟨_, hcycle⟩
  exact ⟨hpairs, by decide, link, (htrue link he).2, he⟩

end Linkage.Registry
