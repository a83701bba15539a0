import Linkage.Description.Robot
import Linkage.Text.Quoted

namespace Linkage

open Description

-- What is noted while the links of a robot are gone through.
inductive Event where
  | skipped (link : String)
  -- A joint with another kind of freedom is taken for a sliding one.
  | folded (joint : String) (kind : JointKind)
  | entered (link : String) (parent : Option String)
deriving DecidableEq, Repr

inductive Level where
  | debug
  | info
  | warning
  | error
deriving DecidableEq, Repr

def Level.name : Level → String
  | debug => "DEBUG"
  | info => "INFO"
  | warning => "WARN"
  | error => "ERROR"

namespace Event

def level : Event → Level
  | skipped _ => .debug
  | folded _ _ => .warning
  | entered _ _ => .debug

def parentText : Option String → String
  | none => "None"
  | some parent => s!"Some({Text.quote parent})"

def text : Event → String
  | skipped link => s!"skipping link {link} without inertial"
  | folded joint kind => s!"joint {joint} of type {kind.title} is modelled as prismatic"
  | entered link parent => s!"link {link} (parent {parentText parent})"

end Event

end Linkage
