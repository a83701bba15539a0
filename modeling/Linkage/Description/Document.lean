import Linkage.Description.Orientation
import Linkage.Description.Presence
import Linkage.Description.RobotForm
import Linkage.Markup.Lenient.Document
import Linkage.Markup.Strict.Document

namespace Linkage.Description

open Markup

-- Reads a description, and with it what was written out and what only counts as being there. The
-- robot is read as far as it can be made out, the orientations being settled before anything else
-- is looked at; what was written out is then taken from the document proper, which there has to be.
def read (text : String) : Reading (Robot Float × Presence) :=
  match Lenient.document? text with
  | none => throw .malformed
  | some found => do
      let robot ← readRobot (← orientDocument found)
      match Strict.document? text with
      | none => throw .malformed
      | some root => return (robot, .ofRoot root)

end Linkage.Description
