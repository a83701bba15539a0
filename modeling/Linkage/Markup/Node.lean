import Linkage.Markup.Scope
import Linkage.Markup.Token
import Linkage.Text.Blank

namespace Linkage.Markup

-- What an element holds, told apart as far as it matters to what is read from it. Texts have no
-- space around them.
inductive Piece (ν : Type) where
  | node (n : ν)
  | text (characters : List Char)
  -- From here on nothing can be read.
  | unreadable
deriving Repr

-- An element with names that have no qualifiers any more.
structure Node where
  name : String
  fields : List (String × String)
  content : List (Piece Node)
deriving Repr

-- What is known where an element stands: the qualifiers in force, the one that each vocabulary goes
-- by, and those that have been declared at all.
structure Surroundings where
  scope : Scope
  spellings : List (String × String)
  declared : List String

namespace Surroundings

-- The vocabularies that are always there go by their own qualifiers.
def fixed : List (String × String) :=
  [(coreVocabulary, "xml"), (declaringVocabulary, "xmlns")]

def outermost : Surroundings :=
  ⟨[("xml", coreVocabulary), ("xmlns", declaringVocabulary)], fixed, ["xml", "xmlns"]⟩

-- A name, with the qualifier that its vocabulary goes by.
def spell? (s : Surroundings) (vocabulary : Option String) (base : String) : Option String :=
  match vocabulary with
  | none => some base
  | some v => (s.spellings.lookup v).map fun q => q ++ ":" ++ base

-- A tag's name needs no qualifier for the vocabulary of names without one.
def spellTag? (s : Surroundings) (name : Name) : Option String := do
  let vocabulary ← s.scope.ofTag? name
  if vocabulary = s.scope.vocabulary? "" then return name.base
  else s.spell? vocabulary name.base

def spellAttribute? (s : Surroundings) (a : Attribute) : Option (String × String) := do
  let vocabulary ← s.scope.ofAttribute? a.name
  return (← s.spell? vocabulary a.name.base, a.value)

end Surroundings

-- A name as it may be written: a character that can begin one, then others with at most one colon
-- among them, which is not last.
def Name.ofText? (text : String) : Option Name :=
  match text.toList with
  | [] => none
  | c :: rest =>
      let isPart (d : Char) := isNamePart d || d == ':'
      if isNameStart c && rest.all isPart then
        match cut? [':'] rest with
        | none => some ⟨none, text⟩
        | some (qualifier, base) =>
            if base.isEmpty || base.contains ':' then none
            else some ⟨some (String.ofList (c :: qualifier)), String.ofList base⟩
      else none

-- Whether a declaration says what can be said: what is always there keeps its qualifier, nothing
-- else takes its place, and only names without a qualifier can be from no vocabulary.
def Attribute.isSayable (a : Attribute) : Bool :=
  match a.declared? with
  | none => true
  | some "" => ["xml", "xmlns", coreVocabulary, declaringVocabulary].all (· != a.value)
  | some q => q != "xmlns" && (q != "xml" || a.value == coreVocabulary) && !a.value.isEmpty

namespace Surroundings

def isDeclared (declared : List String) (name : Name) : Bool :=
  name.qualifier.all declared.contains

-- What is known inside a tag.
def extend (s : Surroundings) (attributes : List Attribute) : Surroundings :=
  let scope := s.scope.extend attributes
  let own := (attributes.filter fun a =>
    scope.ofAttribute? a.name == some (some declaringVocabulary)).map fun a => (a.value, a.name.base)
  ⟨scope, own.reverse ++ fixed ++ s.spellings, s.declared⟩

-- An attribute under the name that it is spelled with. Only characters that can stand in a
-- document may be in its value.
def attribute? (s : Surroundings) (a : Attribute) : Option Attribute := do
  let (spelled, value) ← s.spellAttribute? a
  let name ← Name.ofText? spelled
  let named : Attribute := ⟨name, value⟩
  if value.toList.all isAllowed && named.isSayable then return named else none

-- The name and the fields of a tag that can be read, and what is known inside it.
def tag? (outer : Surroundings) (name : Name) (attributes : List Attribute) :
    Option (String × List (String × String) × Surroundings) := do
  let s := outer.extend attributes
  let tag ← Name.ofText? (← s.spellTag? name)
  let named ← attributes.mapM s.attribute?
  let data := named.filter fun a => a.declared?.isNone
  let declared := named.filterMap Attribute.declared? ++ outer.declared
  if tag.qualifier != some "xml" && tag.qualifier != some "xmlns" && isDeclared declared tag &&
      data.all (fun a => isDeclared declared a.name) && (data.map Attribute.name).Nodup then
    return (tag.base, data.map fun a => (a.name.base, a.value), { s with declared := declared })
  else none

-- Whether the character after its bracket shows that a tag begins, even one that cannot be read,
-- so that a text before it is over. A name is empty if only its qualifier was not, and then the
-- attributes follow or the end of the tag.
def showsTag (outer : Surroundings) (e : Element) : Bool :=
  let next := if !e.attributes.isEmpty then ' ' else if e.content.isEmpty then '/' else '>'
  match (outer.extend e.attributes).spellTag? e.name with
  | none => false
  | some spelled =>
      let c := spelled.toList.head?.getD next
      isNamePart c || isSpace c || c == ':' || c == '?' || c == '/'

end Surroundings

-- An instruction that can be read, one that begins with white space being for no one in particular.
def isReadableInstruction (body : List Char) : Bool :=
  (body.head?.any isSpace || isInstruction body) && body.all isAllowed

-- The end of a run of text. Space around it does not count.
def endRun {ν : Type} (run : List Char) : List (Piece ν) :=
  if run.all isAllowed then
    let trimmed := Text.strip isSpace run
    if trimmed.isEmpty then [] else [.text trimmed]
  else [.unreadable]

mutual

-- An element as it can be read, if its tag can.
def Node.ofElement? (outer : Surroundings) : Element → Option Node
  | ⟨name, attributes, content⟩ => do
      let (base, fields, inner) ← outer.tag? name attributes
      return ⟨base, fields, Node.pieces inner [] content⟩

-- What can be read of some content. Texts are one text unless an element or an instruction is
-- between them.
def Node.pieces (s : Surroundings) (run : List Char) : List (Content Element) → List (Piece Node)
  | [] => endRun run
  | .text characters :: rest => Node.pieces s (run ++ characters) rest
  | .comment characters :: rest =>
      if characters.all isAllowed then Node.pieces s run rest else [.unreadable]
  | .instruction body :: rest =>
      endRun run ++
        if isReadableInstruction body then Node.pieces s [] rest else [.unreadable]
  | .element e :: rest =>
      match Node.ofElement? s e with
      | some node => endRun run ++ .node node :: Node.pieces s [] rest
      | none => if s.showsTag e then endRun run ++ [.unreadable] else [.unreadable]

end

mutual

-- Whether an element can be read to its end.
def Node.isReadable : Node → Bool
  | ⟨_, _, content⟩ => Node.areReadable content

def Node.areReadable : List (Piece Node) → Bool
  | [] => true
  | .node n :: rest => n.isReadable && Node.areReadable rest
  | .text _ :: rest => Node.areReadable rest
  | .unreadable :: _ => false

end

end Linkage.Markup
