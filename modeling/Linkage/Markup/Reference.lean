namespace Linkage.Markup

-- Whether the number in a reference may begin with a plus sign.
inductive NumberStyle where
  | unsigned
  | signed
deriving DecidableEq, Repr

def hexDigit? (c : Char) : Option Nat :=
  if '0' ≤ c ∧ c ≤ '9' then some (c.toNat - '0'.toNat)
  else if 'a' ≤ c ∧ c ≤ 'f' then some (c.toNat - 'a'.toNat + 10)
  else if 'A' ≤ c ∧ c ≤ 'F' then some (c.toNat - 'A'.toNat + 10)
  else none

-- A number to base ten or sixteen. There is none without a digit.
def codePoint? (base : Nat) : List Char → Option Nat
  | [] => none
  | c :: rest => (c :: rest).foldlM (fun n c => do
      let d ← hexDigit? c
      if d < base then some (base * n + d) else none) 0

def NumberStyle.unsign : NumberStyle → List Char → List Char
  | signed, '+' :: digits => digits
  | _, digits => digits

-- The character with a number, whatever character it is.
def character? (style : NumberStyle) (base : Nat) (digits : List Char) : Option Char := do
  let n ← codePoint? base (style.unsign digits)
  if n.isValidChar then some (Char.ofNat n) else none

-- What stands for the text between an ampersand and its semicolon.
def referent? (style : NumberStyle) : List Char → Option Char
  | ['l', 't'] => some '<'
  | ['g', 't'] => some '>'
  | ['a', 'm', 'p'] => some '&'
  | ['a', 'p', 'o', 's'] => some '\''
  | ['q', 'u', 'o', 't'] => some '"'
  | '#' :: 'x' :: digits => character? style 16 digits
  | '#' :: digits => character? style 10 digits
  | _ => none

-- Puts the characters in that a text refers to. `pending` is a reference being read, backwards.
def resolveFrom (style : NumberStyle) (pending : Option (List Char)) :
    List Char → Option (List Char)
  | [] => if pending.isSome then none else some []
  | c :: rest =>
      match pending with
      | none =>
          if c = '&' then resolveFrom style (some []) rest
          else (resolveFrom style none rest).map (c :: ·)
      | some name =>
          if c = ';' then do
            let d ← referent? style name.reverse
            let more ← resolveFrom style none rest
            return d :: more
          else resolveFrom style (some (c :: name)) rest

def resolve (style : NumberStyle) (text : List Char) : Option (List Char) :=
  resolveFrom style none text

end Linkage.Markup
