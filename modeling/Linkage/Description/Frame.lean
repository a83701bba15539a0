import Linkage.Description.Form
import Linkage.Description.Robot

namespace Linkage.Description

open Markup Space

-- Both halves may be left out, and count as zero then.
def readOrigin (node : Node) : Reading (Origin Float) := do
  let form := Form.uniform ["xyz", "rpy"] fun _ => Part.plain triple
  let filled ← form.readAll node
  return ⟨(filled "xyz").getD .zero, (filled "rpy").getD .zero⟩

def originPart : Part → Reading (Origin Float) :=
  Part.compound "Pose" readOrigin

end Linkage.Description
