import Linkage.Decimal.Numeral
import Linkage.Description.Fault
import Linkage.Markup.Node
import Linkage.Space.Vec3
import Linkage.Text.Blank

namespace Linkage.Description

open Markup Space

abbrev Reading := Except Fault

-- One of the things an element says, which it can say by a field of its tag or by an element in
-- it. Reading can also come to where nothing more can be read.
inductive Part where
  | flat (label value : String)
  | nested (node : Node)
  | unreadable
deriving Repr

end Linkage.Description

namespace Linkage.Markup

open Description

-- Texts beside elements say nothing.
def Piece.part? : Piece Node → Option Part
  | node n => some (.nested n)
  | text _ => none
  | unreadable => some .unreadable

namespace Node

-- The fields of the tag are read first.
def parts (node : Node) : List Part :=
  node.fields.map (fun (label, value) => .flat label value) ++ node.content.filterMap Piece.part?

-- The value that an element's text stands for. Nothing but one text may be there; if nothing is,
-- the text is empty. A text that stands for no value is found before what comes after it.
def value {β : Type} (convert : String → Reading β) (node : Node) : Reading β :=
  match node.content with
  | [] => convert ""
  | .text characters :: rest => do
      let v ← convert (String.ofList characters)
      if rest.isEmpty then pure v else throw .malformed
  | _ => throw .malformed

end Node

end Linkage.Markup

namespace Linkage.Description

open Markup Space

-- A number, with any white space around it.
def number (text : String) : Reading Float :=
  let trimmed := Text.trim text
  match Decimal.readFloat? trimmed with
  | some x => pure x
  | none => throw (if trimmed.isEmpty then .emptyNumber else .invalidNumber)

-- The numbers among the words of a text, which have to be as many as expected. Other words are
-- passed over.
def numbers (expected : Nat) (text : String) : Reading (List Float) :=
  let found := (Text.words text).filterMap Decimal.readFloat?
  if found.length = expected then pure found
  else throw (.wrongCount expected found.length text)

def triple (text : String) : Reading (Vec3 Float) := do
  match ← numbers 3 text with
  | [x, y, z] => pure ⟨x, y, z⟩
  | _ => throw .malformed

-- What a word stands for, out of a list of choices.
def choose {β : Type} (choices : List (String × β)) (word : String) : Reading β :=
  match choices.lookup word with
  | some choice => pure choice
  | none => throw (.unknownChoice word (choices.map Prod.fst))

namespace Part

variable {β : Type}

def label? : Part → Option String
  | flat label _ => some label
  | nested node => some node.name
  | unreadable => none

def isReadable : Part → Bool
  | flat _ _ => true
  | nested node => node.isReadable
  | unreadable => false

-- A part that is a plain value.
def plain (convert : String → Reading β) : Part → Reading β
  | flat _ value => convert value
  | nested node => node.value convert
  | unreadable => throw .malformed

-- A part that has parts of its own, and so has to be an element.
def compound (sort : String) (read : Node → Reading β) : Part → Reading β
  | flat _ value => throw (.flat value sort)
  | nested node => read node
  | unreadable => throw .malformed

-- A part that may be there many times.
def listed (read : Node → Reading β) : Part → Reading (List β)
  | flat _ value => throw (.flatList value)
  | nested node => do return [← read node]
  | unreadable => throw .malformed

-- A choice without parts: a word, or an empty element named by it.
def choice (choices : List (String × β)) : Part → Reading β
  | flat _ value => choose choices value
  | nested node =>
      match node.content with
      | .text word :: rest => do
          let chosen ← choose choices (String.ofList word)
          if rest.isEmpty then pure chosen else throw .malformed
      | .node inner :: rest => do
          let chosen ← choose choices inner.name
          if !inner.fields.isEmpty then throw (.attributesOnChoice inner.fields.length)
          else if inner.content.isEmpty && rest.isEmpty then pure chosen
          else throw .malformed
      | _ => throw .malformed
  | unreadable => throw .malformed

-- A choice with parts: one element named by it and nothing else. A word alone does not do, even
-- one that names a choice.
def compoundChoice (choices : List (String × (Node → Reading β))) : Part → Reading β
  | flat _ value => do
      let _ ← choose choices value
      throw .flatChoice
  | nested node =>
      match node.content with
      | .text word :: _ => do
          let _ ← choose choices (String.ofList word)
          throw .malformed
      | .node inner :: rest => do
          let read ← choose choices inner.name
          let v ← read inner
          if rest.isEmpty then pure v else throw .malformed
      | _ => throw .malformed
  | unreadable => throw .malformed

end Part

end Linkage.Description
