import Linkage.Description.Document
import Linkage.Registry

namespace Linkage

open Description Lineage

-- What a reading rests on and does not settle: the order in which the pairs of a robot are gone
-- through, and the words in which a text that is no document is refused.
structure Reader where
  order : Arrangement
  complain : String → String

-- Goes through pairs as they come, and has one complaint for all texts.
def Reader.plain : Reader :=
  ⟨.plain, fun _ => "not a well formed document"⟩

namespace Registry

-- The registry of the robot that a text describes.
def ofText (reader : Reader) (text : String) : List Event × Except Failure (Registry Float) :=
  match Description.read text with
  | .error fault => ([], .error (.invalid fault (reader.complain text)))
  | .ok (robot, presence) => ofRobot reader.order robot presence

-- The registry of the robot that a file describes, files being looked up by `lookup`.
def ofFile (reader : Reader) (lookup : String → Except FileFault String) (path : String) :
    List Event × Except Failure (Registry Float) :=
  match lookup path with
  | .error fault => ([], .error (.unreadable path fault))
  | .ok text => ofText reader text

end Registry

end Linkage
