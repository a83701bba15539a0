import Linkage.Lineage.Kinship

namespace Linkage.Lineage.Kinship

-- The links that no root leads down to. They are on a cycle or below one.
def stray (k : Kinship) : List String :=
  let reached := (k.generations k.links.length k.roots).flatten
  k.links.filter fun link => !reached.contains link

-- The links on the way from `link` up to the first whose parent is `start`.
def climbTo? (k : Kinship) (start : String) : Nat → String → Option (List String)
  | 0, _ => none
  | fuel + 1, link =>
      match k.parent? link with
      | none => none
      | some parent =>
          if parent = start then some [link]
          else (k.climbTo? start fuel parent).map (link :: ·)

-- The cycle that a link is on. No cycle is longer than there are links.
def cycle? (k : Kinship) (link : String) : Option (List String) :=
  k.climbTo? link k.links.length link

-- Whether a link is the first declared of a cycle.
def leadsCycle (k : Kinship) (link : String) : Bool :=
  match k.cycle? link with
  | none => false
  | some members => k.links.find? members.contains == some link

-- A link on a cycle, if there is one: the first that is its own parent, or else the parent of the
-- last link that is the first declared of its cycle.
def cyclic? (k : Kinship) : Option String :=
  match k.stray.find? fun link => k.parent? link == some link with
  | some link => some link
  | none => (k.stray.filter k.leadsCycle).getLast? >>= k.parent?

end Linkage.Lineage.Kinship
