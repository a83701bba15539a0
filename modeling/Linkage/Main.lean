import Linkage.Command.Run

namespace Linkage.Command

-- Whether a system error has a number, which comes with either sign.
def hasNumber (code number : UInt32) : Bool :=
  code == number || code == 0 - number

-- The reason for which a file could not be read.
def faultOf (error : IO.Error) : FileFault :=
  match error with
  | .noFileOrDirectory _ _ _ => .notFound
  | .inappropriateType _ code _ =>
      if hasNumber code 21 then .isDirectory
      else if hasNumber code 20 then .notDirectory
      else .other error.toString
  | _ => .other error.toString

-- What a file holds. Reading is done first, so that the run itself has no effects.
def contentOf (path : String) : IO (Except FileFault String) := do
  try
    let bytes ← IO.FS.readBinFile path
    return match String.fromUTF8? bytes with
      | some text => .ok text
      | none => .error .notText
  catch error => return .error (faultOf error)

end Linkage.Command

open Linkage Command in
def main (words : List String) : IO UInt32 := do
  match Arguments.read? words with
  | none =>
      IO.eprintln "usage: linkage URDF [--leaf NAME] [--q Q...]"
      return 2
  | some arguments =>
      let content ← contentOf arguments.path
      let outcome := run .plain (fun _ => content) arguments
      for line in outcome.lines do
        IO.println line
      return outcome.status.toUInt32
