import Linkage.Lineage.Kinship

namespace Linkage.Lineage

-- The links that wait for their turn, and all that were found so far.
structure Search where
  queue : List String
  found : List String
deriving DecidableEq, Repr

def Search.start (root : String) : Search :=
  ⟨[root], [root]⟩

-- A link that was not found before goes to the end of the queue.
def Search.discover (search : Search) (link : String) : Search :=
  if search.found.contains link then search
  else ⟨search.queue ++ [link], link :: search.found⟩

namespace Kinship

-- Takes the links in their turn, as many as `fuel` at most. The children of a link are discovered
-- when it is taken.
def visit (k : Kinship) : Nat → Search → List String
  | 0, _ => []
  | fuel + 1, search =>
      match search.queue with
      | [] => []
      | link :: waiting =>
          link :: k.visit fuel ((k.children link).foldl .discover ⟨waiting, search.found⟩)

-- The links below a root, breadth first. Each is taken once, so no more than all of them.
def traverse (k : Kinship) (root : String) : List String :=
  k.visit k.links.length (.start root)

-- Cuts links that were taken breadth first into generations: the first is as long as `size` says,
-- and every other one as long as there are children of the one before it.
def cut (k : Kinship) : Nat → Nat → List String → List (List String)
  | 0, _, _ => []
  | fuel + 1, size, links =>
      let level := links.take size
      if level.isEmpty then []
      else level :: k.cut fuel (level.flatMap k.children).length (links.drop size)

def levels (k : Kinship) (root : String) : List (List String) :=
  k.cut k.links.length 1 (k.traverse root)

end Kinship

end Linkage.Lineage
