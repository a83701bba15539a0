namespace Linkage.Markup

-- A name with what stands before its colon, if it has one.
structure Name where
  qualifier : Option String
  base : String
deriving DecidableEq, Repr

structure Attribute where
  name : Name
  value : String
deriving DecidableEq, Repr

-- What an element holds between its tags, in the order in which it is written.
inductive Content (ε : Type) where
  | element (e : ε)
  | text (characters : List Char)
  | comment (characters : List Char)
  | instruction (body : List Char)
deriving Repr

structure Element where
  name : Name
  attributes : List Attribute
  content : List (Content Element)
deriving Repr

namespace Content

def element? {ε : Type} : Content ε → Option ε
  | element e => some e
  | _ => none

end Content

namespace Element

def children (e : Element) : List Element :=
  e.content.filterMap Content.element?

-- The value of the attribute whose whole name is `base`, without a qualifier.
def plainAttribute? (e : Element) (base : String) : Option String :=
  (e.attributes.find? fun a => a.name == ⟨none, base⟩).map Attribute.value

end Element

end Linkage.Markup
