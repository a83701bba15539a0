import Linkage.Decimal.Numeral

namespace Linkage.Command

-- What the program is asked to do: read a file and, if a leaf is named, follow the chain to it
-- at some joint coordinates.
structure Arguments where
  path : String
  leaf : Option String
  coordinates : List Float
deriving Repr

-- What the words of a command line have said so far.
structure Draft where
  path : Option String
  leaf : Option String
  coordinates : List Float

namespace Draft

def blank : Draft :=
  ⟨none, none, []⟩

-- There is one file, and its path is not empty.
def setPath? (draft : Draft) (path : String) : Option Draft :=
  if path.isEmpty || draft.path.isSome then none else some { draft with path := some path }

def setLeaf? (draft : Draft) (leaf : String) : Option Draft :=
  if draft.leaf.isSome then none else some { draft with leaf := some leaf }

def addCoordinate? (draft : Draft) (text : String) : Option Draft :=
  (Decimal.readFloat? text).map fun q => { draft with coordinates := draft.coordinates ++ [q] }

-- Coordinates are for the chain to a leaf.
def finish? (draft : Draft) : Option Arguments := do
  let path ← draft.path
  if draft.leaf.isNone && !draft.coordinates.isEmpty then none
  else return ⟨path, draft.leaf, draft.coordinates⟩

end Draft

-- Whether a word that begins with a dash looks like a number: digits, with at most one point and
-- one exponent mark among them, in this order, neither of them first and the mark not last.
def isNumberLike (body : List Char) : Bool :=
  let isMark (c : Char) := c == 'e' || c == 'E'
  let mantissa := body.takeWhile (!isMark ·)
  let exponent := body.dropWhile (!isMark ·)
  let whole := mantissa.takeWhile (· != '.')
  let fraction := (mantissa.dropWhile (· != '.')).drop 1
  whole.all Char.isDigit && fraction.all Char.isDigit && (exponent.drop 1).all Char.isDigit &&
    (mantissa.isEmpty || !whole.isEmpty) &&
    (exponent.isEmpty || (!mantissa.isEmpty && 1 < exponent.length))

-- A word that cannot stand for a value: it begins with a dash and is not the dash alone.
def isFlag (word : String) : Bool :=
  word.startsWith "-" && word != "-"

-- What the words to come are taken for.
inductive Expect where
  | anything
  | leaf
  -- The first coordinate after its flag has to come.
  | coordinate
  | moreCoordinates
  | paths

-- A flag, alone or with a value that is written to it.
def flag? (draft : Draft) (word : String) : Option (Expect × Draft) :=
  match word.toList with
  | ['-', '-'] => some (.paths, draft)
  | '-' :: '-' :: rest =>
      let name := String.ofList (rest.takeWhile (· != '='))
      let attached := rest.dropWhile (· != '=')
      match name, attached with
      | "leaf", [] => some (.leaf, draft)
      | "leaf", _ :: value => (draft.setLeaf? (String.ofList value)).map (.anything, ·)
      | "q", [] => some (.coordinate, draft)
      | "q", _ :: value => (draft.addCoordinate? (String.ofList value)).map (.anything, ·)
      | _, _ => none
  | _ => none

-- One word of a command line. Coordinates go on until the next flag; a negative number is not
-- taken for one.
def step? (expect : Expect) (draft : Draft) (word : String) : Option (Expect × Draft) :=
  match expect with
  | .paths => (draft.setPath? word).map (.paths, ·)
  | .anything =>
      if isFlag word then flag? draft word else (draft.setPath? word).map (.anything, ·)
  | .leaf => if isFlag word then none else (draft.setLeaf? word).map (.anything, ·)
  | .coordinate =>
      if isFlag word && !isNumberLike (word.toList.drop 1) then none
      else (draft.addCoordinate? word).map (.moreCoordinates, ·)
  | .moreCoordinates =>
      if isFlag word && !isNumberLike (word.toList.drop 1) then flag? draft word
      else (draft.addCoordinate? word).map (.moreCoordinates, ·)

def readFrom? (expect : Expect) (draft : Draft) : List String → Option Arguments
  | [] =>
      match expect with
      | .leaf => none
      | .coordinate => none
      | _ => draft.finish?
  | word :: rest =>
      match step? expect draft word with
      | none => none
      | some (next, more) => readFrom? next more rest

-- The meaning of a command line, if it has one.
def Arguments.read? (words : List String) : Option Arguments :=
  readFrom? .anything .blank words

end Linkage.Command
