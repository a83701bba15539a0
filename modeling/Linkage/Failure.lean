import Linkage.Description.Fault
import Linkage.Storage

namespace Linkage

-- Why there is no registry, no chain or no pose.
inductive Failure where
  | unreadable (path : String) (fault : FileFault)
  | invalid (fault : Description.Fault) (complaint : String)
  | duplicateLink (name : String)
  -- Going from `link` to its parent, and on, never comes to an end.
  | cycle (link : String)
  | danglingParent (link parent : String)
  | danglingChild (link : String)
  | multipleParents (link : String)
  | multipleRoots (links : List String)
  | noRoot
  | linkNotFound (name : String)
  | degenerateAxis
  | jointCountMismatch (expected actual : Nat)
deriving DecidableEq, Repr

def Failure.message : Failure → String
  | unreadable path fault => s!"IO error reading {path}: {fault.message}"
  | invalid fault complaint => s!"URDF parse error: {fault.message complaint}"
  | duplicateLink name => s!"link {name} is declared more than once"
  | cycle link => s!"link graph has a cycle through {link}"
  | danglingParent link parent => s!"link {link} has unknown parent {parent}"
  | danglingChild link => s!"joint child {link} is not a declared link"
  | multipleParents link => s!"link {link} is the child of more than one joint"
  | multipleRoots links => s!"more than one root link: {Text.quoteAll links}"
  | noRoot => "no root link found"
  | linkNotFound name => s!"link not found: {name}"
  | degenerateAxis => "joint axis has zero length"
  | jointCountMismatch expected actual =>
      s!"expected {expected} joint coordinates, got {actual}"

end Linkage
