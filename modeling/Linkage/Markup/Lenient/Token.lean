import Linkage.Markup.Reference
import Linkage.Markup.Token

namespace Linkage.Markup.Lenient

-- A name is whatever stands where a name should. Its first colon divides it.
def splitName (text : List Char) : Name :=
  match cut? [':'] text with
  | some (qualifier, base) => ⟨some (String.ofList qualifier), String.ofList base⟩
  | none => ⟨none, String.ofList text⟩

-- The value of an attribute, between single or double quotes.
def takeValue? (text : List Char) : Option (String × List Char) :=
  match text with
  | q :: rest =>
      if q = '"' ∨ q = '\'' then do
        let (raw, left) ← cut? [q] rest
        return (String.ofList (← resolve .signed raw), left)
      else none
  | [] => none

-- An attribute whose name begins with `first` and goes on to the next equals sign or white space.
def takeAttribute? (first : Char) (text : List Char) : Option (Attribute × List Char) := do
  let (before, rest) ← cut? ['='] text
  let name := first :: before.takeWhile (!isSpace ·)
  if (before.dropWhile (!isSpace ·)).all isSpace then
    let (value, left) ← takeValue? (skipSpace rest)
    return (⟨splitName name, value⟩, left)
  else none

-- The attributes of a tag, up to the slash or the bracket that ends it. No white space has to be
-- between them. The second text bounds their number.
def attributesWithin? (text : List Char) : List Char → Option (List Attribute × List Char)
  | [] => none
  | _ :: bound =>
      match skipSpace text with
      | [] => none
      | c :: rest =>
          if c = '/' ∨ c = '>' then some ([], c :: rest)
          else do
            let (first, left) ← takeAttribute? c rest
            let (more, left) ← attributesWithin? left bound
            return (first :: more, left)

-- An attribute takes at least one character and so does the end of the tag.
def takeAttributes? (text : List Char) : Option (List Attribute × List Char) :=
  attributesWithin? text text

-- An instruction ends with the first bracket after a question mark, and with the bracket goes the
-- character before it, whatever it is.
def instruction? (text : List Char) : Option (Token × List Char) := do
  let (before, rest) ← cut? ['?'] text
  let (more, left) ← cut? ['>'] rest
  return (.instruction (before ++ '?' :: more).dropLast, left)

-- The kind that a document says it is of goes on to the first bracket.
def doctype? (text : List Char) : Option (Token × List Char) := do
  let rest ← after? "OCTYPE".toList text
  if (rest.head?.any isSpace) then
    let (_, left) ← cut? ['>'] (rest.drop 1)
    return (.doctype, left)
  else none

-- A closing tag counts as soon as its name is over. If something other than its bracket follows,
-- there is no token after it.
def closing? (text : List Char) : Option (Token × List Char) :=
  let isEnd (c : Char) := c == '>' || isSpace c
  let closing := Token.closing (splitName (text.takeWhile (!isEnd ·)))
  match text.dropWhile (!isEnd ·) with
  | [] => none
  | rest =>
      match skipSpace rest with
      | '>' :: left => some (closing, left)
      | _ => some (closing, [])

-- The first character of a tag's name can be any at all.
def opening? (first : Char) (text : List Char) : Option (Token × List Char) := do
  let isEnd (c : Char) := c == '/' || c == '>' || isSpace c
  let name := splitName (first :: text.takeWhile (!isEnd ·))
  let (attributes, left) ← takeAttributes? (text.dropWhile (!isEnd ·))
  match left with
  | '>' :: more => return (.opening name attributes false, more)
  | '/' :: '>' :: more => return (.opening name attributes true, more)
  | _ => none

-- Text counts only if something follows it.
def text? (text : List Char) : Option (Token × List Char) :=
  match text.dropWhile (· != '<') with
  | [] => none
  | rest => some (.text (text.takeWhile (· != '<')), rest)

def next? (text : List Char) : Option (Token × List Char) :=
  match text with
  | '<' :: '/' :: rest => closing? rest
  | '<' :: '?' :: rest => instruction? rest
  | '<' :: '!' :: '-' :: '-' :: rest => Token.comment? rest
  | '<' :: '!' :: '[' :: 'C' :: 'D' :: 'A' :: 'T' :: 'A' :: '[' :: rest => Token.verbatim? rest
  | '<' :: '!' :: 'D' :: rest => doctype? rest
  | '<' :: '!' :: _ => none
  | '<' :: first :: rest => opening? first rest
  | ['<'] => none
  | other => text? other

-- The tokens of a text up to the first place that holds none, no more of them than the second
-- text has characters.
def tokensWithin (text : List Char) : List Char → List Token
  | [] => []
  | _ :: bound =>
      match next? text with
      | none => []
      | some (token, rest) => token :: tokensWithin rest bound

-- Each token takes at least one character, so the text bounds the tokens in it.
def tokens (text : List Char) : List Token :=
  tokensWithin text text

end Linkage.Markup.Lenient
