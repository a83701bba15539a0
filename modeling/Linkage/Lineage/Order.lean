import Linkage.Failure
import Linkage.Lineage.Cycle
import Linkage.Lineage.Traversal

namespace Linkage.Lineage.Kinship

-- Refuses the first pair that has an undeclared link, the child being looked at first.
def checkDeclared (k : Kinship) : Except Failure Unit :=
  k.pairs.forM fun (child, parent) =>
    if !k.links.contains child then throw (.danglingChild child)
    else if !k.links.contains parent then throw (.danglingParent child parent)
    else pure ()

-- The links by their distance from the one root. What is acyclic and has one link without a
-- parent is a tree, in which the root reaches every link.
def order (k : Kinship) : Except Failure (List (List String)) := do
  k.checkDeclared
  match k.cyclic? with
  | some link => throw (.cycle link)
  | none =>
      match k.roots with
      | [] => if k.links.isEmpty then pure [] else throw .noRoot
      | [root] => pure (k.levels root)
      | several => throw (.multipleRoots several)

end Linkage.Lineage.Kinship
