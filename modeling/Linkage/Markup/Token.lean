import Linkage.Markup.Character
import Linkage.Markup.Element

namespace Linkage.Markup

-- A piece of a document between two cuts that no tag crosses. Text is as it was written, with
-- its references still in it.
inductive Token where
  | opening (name : Name) (attributes : List Attribute) (closed : Bool)
  | closing (name : Name)
  | text (characters : List Char)
  | verbatim (characters : List Char)
  | comment (characters : List Char)
  | instruction (body : List Char)
  | doctype
deriving Repr

def Token.isDoctype : Token → Bool
  | doctype => true
  | _ => false

-- What follows a text if another begins with it.
def after? : List Char → List Char → Option (List Char)
  | [], rest => some rest
  | _ :: _, [] => none
  | a :: mark, b :: rest => if a = b then after? mark rest else none

-- What stands before and after the first place where a mark occurs.
def cut? (mark : List Char) : List Char → Option (List Char × List Char)
  | [] => if mark.isEmpty then some ([], []) else none
  | c :: rest =>
      match after? mark (c :: rest) with
      | some left => some ([], left)
      | none => (cut? mark rest).map fun (before, left) => (c :: before, left)

def skipSpace (text : List Char) : List Char :=
  text.dropWhile isSpace

-- What follows some white space, of which there has to be some.
def afterSpace? (text : List Char) : Option (List Char) :=
  if (text.head?.any isSpace) then some (skipSpace text) else none

-- A comment ends with the first two dashes in it, which a bracket has to follow.
def Token.comment? (text : List Char) : Option (Token × List Char) := do
  let (characters, rest) ← cut? ['-', '-'] text
  match rest with
  | '>' :: left => return (comment characters, left)
  | _ => none

def Token.verbatim? (text : List Char) : Option (Token × List Char) := do
  let (characters, left) ← cut? [']', ']', '>'] text
  return (verbatim characters, left)

-- What an instruction is for: a name other than the one kept for the declaration that may open a
-- document, and then white space or nothing.
def isInstruction (body : List Char) : Bool :=
  match body with
  | [] => false
  | c :: rest =>
      let isPart (d : Char) := isNamePart d || d == ':'
      let target := c :: rest.takeWhile isPart
      let left := rest.dropWhile isPart
      (isNameStart c || c == ':') && (left.isEmpty || (left.take 1).all isSpace) &&
        target.map Char.toLower != ['x', 'm', 'l']

end Linkage.Markup
