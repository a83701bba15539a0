import Linkage.Markup.Element

namespace Linkage.Markup

-- The identifier of a vocabulary that every document has.
def reserved (path : String) : String :=
  "http:" ++ "//www.w3.org/" ++ path

-- What the qualifier `xml` stands for.
def coreVocabulary : String :=
  reserved "XML/1998/namespace"

-- What the qualifier `xmlns` stands for, by which others are declared.
def declaringVocabulary : String :=
  reserved "2000/xmlns/"

namespace Attribute

-- The qualifier that an attribute declares. It is empty for what names without one stand for.
def declared? (a : Attribute) : Option String :=
  match a.name with
  | ⟨none, "xmlns"⟩ => some ""
  | ⟨some "xmlns", base⟩ => some base
  | _ => none

end Attribute

-- The qualifiers in force, each with what it stands for, the innermost first.
abbrev Scope := List (String × String)

namespace Scope

-- The qualifiers in force inside a tag. Of two declarations the later counts.
def extend (scope : Scope) (attributes : List Attribute) : Scope :=
  (attributes.filterMap fun a => a.declared?.map (·, a.value)).reverse ++ scope

-- What a qualifier stands for. One that is declared to be empty stands for nothing.
def vocabulary? (scope : Scope) (qualifier : String) : Option String :=
  match scope.lookup qualifier with
  | some "" => none
  | other => other

-- The vocabulary that a tag's name is from, if it has to be from one and from which.
def ofTag? (scope : Scope) (name : Name) : Option (Option String) :=
  match name.qualifier with
  | none => some (scope.vocabulary? "")
  | some q => (scope.vocabulary? q).map some

-- The same for an attribute, which is from none unless its name says so.
def ofAttribute? (scope : Scope) (name : Name) : Option (Option String) :=
  match name.qualifier with
  | none => some none
  | some q => (scope.vocabulary? q).map some

end Scope

end Linkage.Markup
