import Linkage.Registry

namespace Linkage

open Body Space

-- Links from a base to a tip, each held by the one before it. Every link has one coordinate, the
-- base as well.
structure Chain (α : Type) where
  members : List (String × Segment α)
deriving DecidableEq, Repr

namespace Chain

variable {α : Type} [Scalar α]

-- Goes from parent to parent while there is one in the registry, and no further than the registry
-- has links. The links are met from the tip on.
def ascend (registry : Registry α) :
    Nat → String → Entry α → Except Failure (List (String × Segment α))
  | 0, name, _ => throw (.cycle name)
  | fuel + 1, name, entry =>
      match entry.parent >>= fun parent => (registry.get? parent).map (parent, ·) with
      | none => pure [(name, entry.segment)]
      | some (parent, above) => do
          let met ← ascend registry fuel parent above
          return (name, entry.segment) :: met

-- The chain that ends with a link.
def toLink (registry : Registry α) (tip : String) : Except Failure (Chain α) :=
  match registry.get? tip with
  | none => throw (.linkNotFound tip)
  | some entry => do
      let met ← ascend registry registry.size tip entry
      return ⟨met.reverse⟩

def length (chain : Chain α) : Nat :=
  chain.members.length

def isEmpty (chain : Chain α) : Bool :=
  chain.members.isEmpty

def names (chain : Chain α) : List String :=
  chain.members.map Prod.fst

def segments (chain : Chain α) : List (Segment α) :=
  chain.members.map Prod.snd

-- Each link seen from the one before it.
def transforms (chain : Chain α) (q : List α) : Except Failure (List (Pose α)) :=
  if q.length = chain.length then
    .ok (List.zipWith Segment.transform chain.segments q)
  else .error (.jointCountMismatch chain.length q.length)

-- The products of the first one, two, three and so on of some poses, after `base`.
def accumulate (base : Pose α) : List (Pose α) → List (Pose α)
  | [] => []
  | pose :: rest =>
      let next := base.compose pose
      next :: accumulate next rest

-- Each link seen from where the base is attached.
def poses (chain : Chain α) (q : List α) : Except Failure (List (Pose α)) :=
  (chain.transforms q).map (accumulate .one)

-- The tip seen from where the base is attached.
def tipPose (chain : Chain α) (q : List α) : Except Failure (Pose α) :=
  (chain.poses q).map fun poses => poses.getLast?.getD .one

end Chain

end Linkage
