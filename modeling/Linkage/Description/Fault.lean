import Linkage.Text.Quoted

namespace Linkage.Description

-- Why a text is not the description of a robot.
inductive Fault where
  -- The text is not a well formed document, or an element holds content of no use to it.
  | malformed
  | missing (field : String)
  | duplicate (field : String)
  | unknownChoice (written : String) (known : List String)
  -- An attribute stands where an element of the given sort is needed.
  | flat (written sort : String)
  | flatList (written : String)
  | flatChoice
  -- A choice without parts was given attributes.
  | attributesOnChoice (count : Nat)
  | emptyNumber
  | invalidNumber
  | wrongCount (expected found : Nat) (written : String)
  | twoOrientations
  | invalidQuaternion (written : String)
deriving DecidableEq, Repr

namespace Fault

def ticked (word : String) : String :=
  "`" ++ word ++ "`"

-- What is said of a fault in the way a document fills its form.
def detail : Fault → Option String
  | malformed => none
  | missing field => some s!"missing field {ticked field}"
  | duplicate field => some s!"duplicate field {ticked field}"
  | unknownChoice written known =>
      let choices := ", ".intercalate (known.map ticked)
      some s!"unknown variant {ticked written}, expected one of {choices}"
  | flat written sort =>
      some s!"invalid type: string {Text.quote written}, expected struct {sort}"
  | flatList written => some s!"invalid type: string {Text.quote written}, expected a sequence"
  | flatChoice => some "invalid type: unit variant, expected struct variant"
  | attributesOnChoice count => some s!"invalid length {count}, expected 0"
  | emptyNumber => some "cannot parse float from empty string"
  | invalidNumber => some "invalid float literal"
  | wrongCount expected found written =>
      some s!"Wrong vector element count, expected {expected} found {found} for [{written}]"
  | twoOrientations => none
  | invalidQuaternion _ => none

-- The wording of a fault. The malformed document has none of its own.
def message? : Fault → Option String
  | twoOrientations =>
      some "Both rpy and quat_xyzw orientations are defined. Use either one or the other."
  | invalidQuaternion written =>
      some s!"quat_xyzw must be four floating point values: [{written}]"
  | fault => fault.detail.map ("custom: " ++ ·)

-- What is said of a fault, if the complaint is what is said of the document where it is malformed.
def message (complaint : String) (fault : Fault) : String :=
  fault.message?.getD complaint

end Fault

end Linkage.Description
