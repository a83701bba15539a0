namespace Linkage.Lineage

-- Declared links and who is whose child, each pair a child and its parent. The pairs may come in
-- any order.
structure Kinship where
  links : List String
  pairs : List (String × String)
deriving DecidableEq, Repr

namespace Kinship

def parent? (k : Kinship) (link : String) : Option String :=
  k.pairs.lookup link

def children (k : Kinship) (link : String) : List String :=
  (k.pairs.filter fun pair => pair.2 == link).map Prod.fst

-- The links that are no one's child, in the order of their declaration.
def roots (k : Kinship) : List String :=
  k.links.filter fun link => (k.parent? link).isNone

-- The generations below a set of links, itself the first. A generation that is as far down as
-- there are links is not reached.
def generations (k : Kinship) : Nat → List String → List (List String)
  | 0, _ => []
  | fuel + 1, level =>
      if level.isEmpty then [] else level :: k.generations fuel (level.flatMap k.children)

end Kinship

-- An order in which pairs are gone through, whatever they are.
structure Arrangement where
  arrange : List (String × String) → List (String × String)
  perm : ∀ pairs, (arrange pairs).Perm pairs

-- The pairs as they come.
def Arrangement.plain : Arrangement :=
  ⟨id, fun pairs => .refl pairs⟩

-- The first member of a list that already came before.
def firstRepeat? (seen : List String) : List String → Option String
  | [] => none
  | x :: rest => if seen.contains x then some x else firstRepeat? (x :: seen) rest

end Linkage.Lineage
