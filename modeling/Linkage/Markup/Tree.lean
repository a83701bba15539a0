import Linkage.Markup.Reference
import Linkage.Markup.Scope
import Linkage.Markup.Token

namespace Linkage.Markup

-- What two ways of reading a document differ in: how numbers are written in references, which
-- qualifiers are in force from the start, which tags can be opened where some are, and which names
-- close a tag.
structure Rules where
  style : NumberStyle
  outermost : Scope
  enter? : Scope → Name → List Attribute → Option Scope
  closes : Scope → Name → Name → Bool

-- An element whose end has not been reached. Its content so far is kept backwards.
structure Pending where
  name : Name
  attributes : List Attribute
  scope : Scope
  content : List (Content Element)

namespace Pending

def add (p : Pending) (piece : Content Element) : Pending :=
  { p with content := piece :: p.content }

def finish (p : Pending) : Element :=
  ⟨p.name, p.attributes, p.content.reverse⟩

end Pending

namespace Rules

-- Reads the content of the open elements, the innermost first, up to the end of the outermost,
-- and gives that element with the tokens that are left.
def close? (rules : Rules) (current : Pending) (outer : List Pending) :
    List Token → Option (Element × List Token)
  | [] => none
  | .opening name attributes closed :: rest =>
      match rules.enter? current.scope name attributes with
      | none => none
      | some scope =>
          if closed then
            rules.close? (current.add (.element ⟨name, attributes, []⟩)) outer rest
          else rules.close? ⟨name, attributes, scope, []⟩ (current :: outer) rest
  | .closing name :: rest =>
      if rules.closes current.scope current.name name then
        match outer with
        | [] => some (current.finish, rest)
        | parent :: others => rules.close? (parent.add (.element current.finish)) others rest
      else none
  | .text characters :: rest =>
      match resolve rules.style characters with
      | none => none
      | some text => rules.close? (current.add (.text text)) outer rest
  | .verbatim characters :: rest => rules.close? (current.add (.text characters)) outer rest
  | .comment characters :: rest => rules.close? (current.add (.comment characters)) outer rest
  | .instruction body :: rest => rules.close? (current.add (.instruction body)) outer rest
  | .doctype :: _ => none

-- The outermost element, if the tokens begin with it, and what is left after it.
def outermost? (rules : Rules) : List Token → Option (Element × List Token)
  | .opening name attributes closed :: rest => do
      let scope ← rules.enter? rules.outermost name attributes
      if closed then return (⟨name, attributes, []⟩, rest)
      else rules.close? ⟨name, attributes, scope, []⟩ [] rest
  | _ => none

end Rules

end Linkage.Markup
