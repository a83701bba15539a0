import Linkage.Command.Arguments
import Linkage.Command.Report
import Linkage.Load

namespace Linkage.Command

-- How a run ends: the exit status, and the lines written until then.
structure Outcome where
  status : Nat
  lines : List String
deriving DecidableEq, Repr

def Outcome.succeed (lines : List String) : Outcome :=
  ⟨0, lines⟩

-- A failure is reported last.
def Outcome.fail (lines : List String) (failure : Failure) : Outcome :=
  ⟨1, lines ++ [failureLine failure]⟩

def Outcome.after (lines : List String) (outcome : Outcome) : Outcome :=
  { outcome with lines := lines ++ outcome.lines }

-- The frames of a chain at some coordinates, all zero if none are given.
def followChain (chain : Chain Float) (coordinates : List Float) : Outcome :=
  let q := if coordinates.isEmpty then List.replicate chain.length 0.0 else coordinates
  match chain.poses q with
  | .error failure => .fail [chainLine chain] failure
  | .ok poses => .succeed (chainLine chain :: List.zipWith poseLine chain.names poses)

-- A registry, and the chain to a leaf if one is named.
def showRegistry (arguments : Arguments) (registry : Registry Float) : Outcome :=
  let entries := registry.ordered.map fun (name, entry) => entryLine name entry
  let lines := readLine registry.size arguments.path :: entries
  match arguments.leaf with
  | none => .succeed lines
  | some leaf =>
      match Chain.toLink registry leaf with
      | .error failure => .fail lines failure
      | .ok chain => (followChain chain arguments.coordinates).after lines

-- Does what the arguments ask for, files being looked up by `lookup`.
def run (reader : Reader) (lookup : String → Except FileFault String) (arguments : Arguments) :
    Outcome :=
  let loaded := Registry.ofFile reader lookup arguments.path
  let warnings := loaded.1.filterMap eventLine?
  match loaded.2 with
  | .error failure => .fail warnings failure
  | .ok registry => (showRegistry arguments registry).after warnings

-- A command line without a meaning ends with status 2 and says nothing.
def runWords (reader : Reader) (lookup : String → Except FileFault String) (words : List String) :
    Outcome :=
  match Arguments.read? words with
  | none => ⟨2, []⟩
  | some arguments => run reader lookup arguments

end Linkage.Command
