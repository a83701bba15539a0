import Linkage.Description.Kinematics

namespace Linkage

open Body Description Lineage

-- A link of a robot that has inertial data. Its parent need not have any, and there is none above
-- the root.
structure Entry (α : Type) where
  segment : Segment α
  parent : Option String
deriving DecidableEq, Repr

-- The links of a robot that have inertial data: in the order of their declaration, and their
-- names by distance from the root, links without such data counted.
structure Registry (α : Type) where
  entries : List (String × Entry α)
  levels : List (List String)
deriving DecidableEq, Repr

namespace Registry

variable {α : Type} [Scalar α]

-- The entries of the links that have inertial data, up to the first without a direction to move
-- in, and what is noted on the way.
def enroll (robot : Robot α) (presence : Presence) :
    List (Link α) → List Event × Except Failure (List (String × Entry α))
  | [] => ([], .ok [])
  | link :: rest =>
      if presence.inertial.contains link.name then
        match robot.segment? presence link with
        | none => (robot.warnings link, .error .degenerateAxis)
        | some segment =>
            let parent := robot.parentOf link
            let below := enroll robot presence rest
            (robot.warnings link ++ .entered link.name parent :: below.1,
              below.2.map ((link.name, ⟨segment, parent⟩) :: ·))
      else
        let below := enroll robot presence rest
        (.skipped link.name :: below.1, below.2)

-- The registry of a robot whose pairs of child and parent are gone through in the given order.
def ofPairs (robot : Robot α) (presence : Presence) (pairs : List (String × String)) :
    List Event × Except Failure (Registry α) :=
  match robot.order pairs with
  | .error failure => ([], .error failure)
  | .ok levels =>
      let enrolled := enroll robot presence robot.links
      (enrolled.1, enrolled.2.map fun entries =>
        ⟨entries, levels.map (·.filter ((entries.map Prod.fst).contains ·))⟩)

-- Nothing settles in which order the pairs of a robot are gone through.
def ofRobot (order : Arrangement) (robot : Robot α) (presence : Presence) :
    List Event × Except Failure (Registry α) :=
  ofPairs robot presence (order.arrange robot.pairs)

def get? (registry : Registry α) (name : String) : Option (Entry α) :=
  registry.entries.lookup name

def contains (registry : Registry α) (name : String) : Bool :=
  (registry.get? name).isSome

def parentOf? (registry : Registry α) (name : String) : Option String :=
  registry.get? name >>= Entry.parent

def size (registry : Registry α) : Nat :=
  registry.entries.length

def isEmpty (registry : Registry α) : Bool :=
  registry.entries.isEmpty

-- The names of the links, every parent before its children.
def order (registry : Registry α) : List String :=
  registry.levels.flatten

-- The links in that order.
def ordered (registry : Registry α) : List (String × Entry α) :=
  registry.order.filterMap fun name => (registry.get? name).map (name, ·)

-- The link without a parent, if it has inertial data.
def root? (registry : Registry α) : Option String :=
  (registry.ordered.find? fun (_, entry) => entry.parent.isNone).map Prod.fst

-- The links that are no parent of a link in the registry.
def leaves (registry : Registry α) : List String :=
  registry.order.filter fun name => !registry.entries.any fun (_, entry) => entry.parent == some name

end Registry

end Linkage
