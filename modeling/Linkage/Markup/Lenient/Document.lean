import Linkage.Markup.Lenient.Token
import Linkage.Markup.Tree

namespace Linkage.Markup.Lenient

-- A tag can be opened if all its qualifiers stand for something and no two of its attributes have
-- one name from one vocabulary.
def enter? (scope : Scope) (name : Name) (attributes : List Attribute) : Option Scope := do
  let inner := scope.extend attributes
  let _ ← inner.ofTag? name
  let origins ← attributes.mapM fun a => inner.ofAttribute? a.name
  if ((attributes.map (·.name.base)).zip origins).Nodup then return inner else none

-- A tag is closed by its name, whatever qualifier its vocabulary goes by.
def closes (scope : Scope) (opened closed : Name) : Bool :=
  opened.base == closed.base && (scope.ofTag? closed).isSome &&
    scope.ofTag? opened == scope.ofTag? closed

def rules : Rules where
  style := .signed
  outermost := [("xml", coreVocabulary), ("xmlns", declaringVocabulary)]
  enter? := enter?
  closes := closes

-- The first element, if nothing before it is without meaning. What comes after it is not read.
def root? : List Token → Option Element
  | [] => none
  | .opening name attributes closed :: rest =>
      (rules.outermost? (.opening name attributes closed :: rest)).map Prod.fst
  | .closing _ :: _ => none
  | .text characters :: rest =>
      if (resolve rules.style characters).isSome then root? rest else none
  | _ :: rest => root? rest

-- Reads a document for its first element, taking any text between brackets for a name and passing
-- by every statement of the document's kind.
def document? (text : String) : Option Element :=
  root? ((tokens text.toList).filter (!·.isDoctype))

end Linkage.Markup.Lenient
