import Linkage.Markup.Strict.Token
import Linkage.Markup.Tree

namespace Linkage.Markup.Strict

-- Whether a name's qualifier is in force, if it has one.
def isBound (scope : Scope) (name : Name) : Bool :=
  name.qualifier.all fun q => scope.any fun (bound, _) => bound == q

-- A tag is sound if no two attributes have the same name, no qualifier is declared to be empty and
-- all that are used are in force. What names without a qualifier stand for is said once at most; it
-- is said by every other attribute called `xmlns`, whatever its qualifier.
def enter? (scope : Scope) (name : Name) (attributes : List Attribute) : Option Scope :=
  let inner := scope.extend attributes
  let (declarations, others) := attributes.partition fun a => a.name.qualifier == some "xmlns"
  let (defaults, data) := others.partition fun a => a.name.base == "xmlns"
  let isSound := (attributes.map Attribute.name).Nodup && defaults.length ≤ 1 &&
    declarations.all fun a => !a.value.isEmpty
  let isKnown := isBound inner name && data.all fun a => isBound inner a.name
  if isSound && isKnown then some inner else none

-- The qualifier for declarations is for nothing else.
def rules : Rules where
  style := .unsigned
  outermost := [("xml", coreVocabulary)]
  enter? := enter?
  closes _ opened closed := opened == closed

-- What may stand around the outermost element.
def isOutside : Token → Bool
  | .text characters => characters.all isSpace
  | .comment _ => true
  | .instruction _ => true
  | _ => false

-- One element with nothing of weight around it. The kind of the document may be said before it,
-- any number of times, but not as the very first thing.
def root? (declared : Bool) (tokens : List Token) : Option Element :=
  if !declared && tokens.head?.any Token.isDoctype then none
  else do
    let main := tokens.dropWhile fun token => isOutside token || token.isDoctype
    let (element, left) ← rules.outermost? main
    if left.all isOutside then return element else none

def isVersion (value : List Char) : Bool :=
  match value with
  | '1' :: '.' :: digits => !digits.isEmpty && digits.all Char.isDigit
  | _ => false

def isEncoding (value : List Char) : Bool :=
  match value with
  | c :: rest => c.isAlpha && rest.all fun d => d.isAlphanum || d == '.' || d == '_' || d == '-'
  | [] => false

def isAnswer (value : List Char) : Bool :=
  value == "yes".toList || value == "no".toList

-- What follows a setting of the declaration, white space before it and a fitting value as it is
-- written.
def afterSetting? (name : String) (fits : List Char → Bool) (text : List Char) :
    Option (List Char) := do
  let rest ← after? name.toList (← afterSpace? text)
  let (value, left) ← takeQuoted? (← afterEquals? rest)
  if fits value then return left else none

-- What follows the declaration that may open a document: a version, then an encoding, then
-- whether the document stands alone, the last two if wanted.
def afterDeclaration? (text : List Char) : Option (List Char) := do
  let versioned ← afterSetting? "version" isVersion (← after? "<?xml".toList text)
  let encoded := (afterSetting? "encoding" isEncoding versioned).getD versioned
  let settled := (afterSetting? "standalone" isAnswer encoded).getD encoded
  after? "?>".toList (skipSpace settled)

-- Reads a document into its outermost element. There is none unless the document is well formed.
def document? (text : String) : Option Element :=
  match afterDeclaration? text.toList with
  | some body => tokens? body >>= root? true
  | none => tokens? text.toList >>= root? false

end Linkage.Markup.Strict
