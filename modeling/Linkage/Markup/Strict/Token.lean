import Linkage.Markup.Reference
import Linkage.Markup.Token

namespace Linkage.Markup.Strict

-- The longest simple name at the front of a text.
def takeSimple? (text : List Char) : Option (String × List Char) :=
  match text with
  | [] => none
  | c :: rest =>
      if isNameStart c then
        some (String.ofList (c :: rest.takeWhile isNamePart), rest.dropWhile isNamePart)
      else none

-- One or two simple names with a colon between them.
def takeName? (text : List Char) : Option (Name × List Char) := do
  let (first, rest) ← takeSimple? text
  match rest with
  | ':' :: more =>
      let (second, left) ← takeSimple? more
      return (⟨some first, second⟩, left)
  | _ => return (⟨none, first⟩, rest)

-- What stands between single or double quotes. It may hold the other quote.
def takeQuoted? (text : List Char) : Option (List Char × List Char) :=
  match text with
  | q :: rest => if q = '"' ∨ q = '\'' then cut? [q] rest else none
  | [] => none

-- The value of an attribute. It holds no opening bracket.
def takeValue? (text : List Char) : Option (String × List Char) := do
  let (raw, left) ← takeQuoted? text
  if raw.contains '<' then none
  else return (String.ofList (← resolve .unsigned raw), left)

-- What follows an equals sign with white space around it.
def afterEquals? (text : List Char) : Option (List Char) :=
  match skipSpace text with
  | '=' :: rest => some (skipSpace rest)
  | _ => none

def takeAttribute? (text : List Char) : Option (Attribute × List Char) := do
  let (name, rest) ← takeName? text
  let (value, left) ← takeValue? (← afterEquals? rest)
  return (⟨name, value⟩, left)

-- The attributes of a tag, each after some white space, up to where none can begin. The second
-- text bounds their number.
def attributesWithin? (text : List Char) : List Char → Option (List Attribute × List Char)
  | [] => some ([], text)
  | _ :: bound =>
      let rest := skipSpace text
      if !(rest.head?.any isNameStart) then some ([], rest)
      else if !(text.head?.any isSpace) then none
      else do
        let (first, left) ← takeAttribute? rest
        let (more, left) ← attributesWithin? left bound
        return (first :: more, left)

-- An attribute takes at least one character, so the text bounds the attributes in it.
def takeAttributes? (text : List Char) : Option (List Attribute × List Char) :=
  attributesWithin? text text

def instruction? (text : List Char) : Option (Token × List Char) := do
  let (body, left) ← cut? ['?', '>'] text
  if isInstruction body then return (.instruction body, left) else none

def closing? (text : List Char) : Option (Token × List Char) := do
  let (name, rest) ← takeName? text
  match skipSpace rest with
  | '>' :: left => return (.closing name, left)
  | _ => none

def opening? (text : List Char) : Option (Token × List Char) := do
  let (name, rest) ← takeName? text
  let (attributes, left) ← takeAttributes? rest
  match left with
  | '>' :: more => return (.opening name attributes false, more)
  | '/' :: '>' :: more => return (.opening name attributes true, more)
  | _ => none

-- Text runs up to the next bracket. The mark that ends verbatim text is not text.
def text? (text : List Char) : Option (Token × List Char) :=
  let characters := text.takeWhile (· != '<')
  if (cut? [']', ']', '>'] characters).isSome then none
  else some (.text characters, text.dropWhile (· != '<'))

-- Where the rules for a kind of document are kept, outside of it. The place is not looked up.
def afterLocation? (text : List Char) : Option (List Char) := do
  let rest ← after? "SYSTEM".toList (← afterSpace? text)
  let (place, left) ← takeQuoted? (← afterSpace? rest)
  if place.isEmpty || place.contains '<' || place.contains '&' then none else return left

-- The rules for a kind of document that are part of it, up to the first bracket that closes. They
-- are not looked at.
def afterSubset? (text : List Char) : Option (List Char) :=
  match text with
  | '[' :: rest => (cut? [']'] rest).map fun (_, left) => skipSpace left
  | _ => none

-- The kind that a document says it is of.
def doctype? (text : List Char) : Option (Token × List Char) := do
  let isPart (c : Char) := isNamePart c || c == ':'
  let named ← afterSpace? text
  if !(named.head?.any fun c => isNameStart c || c == ':') then none
  else
    let rest := named.dropWhile isPart
    let located := skipSpace ((afterLocation? rest).getD rest)
    match (afterSubset? located).getD located with
    | '>' :: left => return (.doctype, left)
    | _ => none

-- The first token of a text that is not empty.
def next? (text : List Char) : Option (Token × List Char) :=
  match text with
  | '<' :: '/' :: rest => closing? rest
  | '<' :: '?' :: rest => instruction? rest
  | '<' :: '!' :: '-' :: '-' :: rest => Token.comment? rest
  | '<' :: '!' :: '[' :: 'C' :: 'D' :: 'A' :: 'T' :: 'A' :: '[' :: rest => Token.verbatim? rest
  | '<' :: '!' :: 'D' :: 'O' :: 'C' :: 'T' :: 'Y' :: 'P' :: 'E' :: rest => doctype? rest
  | '<' :: '!' :: _ => none
  | '<' :: rest => opening? rest
  | other => text? other

-- All tokens of a text, if there are no more of them than the second text has characters.
def tokensWithin? (text : List Char) : List Char → Option (List Token)
  | [] => if text.isEmpty then some [] else none
  | _ :: bound =>
      if text.isEmpty then some []
      else do
        let (token, rest) ← next? text
        let more ← tokensWithin? rest bound
        return token :: more

-- Each token takes at least one character, so the text bounds the tokens in it.
def tokens? (text : List Char) : Option (List Token) :=
  tokensWithin? text text

end Linkage.Markup.Strict
