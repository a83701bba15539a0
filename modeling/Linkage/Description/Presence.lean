import Linkage.Markup.Element

namespace Linkage.Description

open Markup

-- Which links were given inertial data and which joints an axis, by name.
structure Presence where
  inertial : List String
  axis : List String
deriving DecidableEq, Repr

namespace Presence

-- The names of the children of one kind that hold an element of another. A child counts by its
-- attribute `name`, and does not count without one.
def namesHolding (root : Element) (kind inner : String) : List String :=
  (root.children.filter fun child =>
    child.name.base == kind && child.children.any (·.name.base == inner)).filterMap
      (·.plainAttribute? "name")

def ofRoot (root : Element) : Presence :=
  ⟨namesHolding root "link" "inertial", namesHolding root "joint" "axis"⟩

end Presence

end Linkage.Description
