import Linkage.Description.Check
import Linkage.Description.Frame

namespace Linkage.Description

open Markup

-- What a link looks like and what it bumps into have no part in how it moves. They are read all
-- the same, so that a description is accepted or refused as a whole.

def size (label : String) : Check :=
  .needed label (Part.plain number)

-- The shapes that a body can have, with their measures.
def shapes : List (String × (Node → Reading Unit)) :=
  [("box", Check.all [.needed "size" (Part.plain triple)]),
    ("cylinder", Check.all [size "radius", size "length"]),
    ("capsule", Check.all [size "radius", size "length"]),
    ("sphere", Check.all [size "radius"]),
    ("mesh", Check.all [.needed "filename" text, .allowed "scale" (Part.plain triple)])]

def shape : Part → Reading Unit :=
  Part.compoundChoice shapes

def checkMaterial : Node → Reading Unit :=
  Check.all
    [.needed "name" text,
      .allowed "color" (Part.compound "Color" (readSole "rgba" (Part.plain (numbers 4)))),
      .allowed "texture" (Part.compound "Texture" (readSole "filename" text))]

def checkVisual : Node → Reading Unit :=
  Check.all
    [.allowed "name" text,
      .allowed "origin" originPart,
      .needed "geometry" shape,
      .allowed "material" (Part.compound "Material" checkMaterial)]

def checkCollision : Node → Reading Unit :=
  Check.all
    [.allowed "name" text,
      .allowed "origin" originPart,
      .needed "geometry" shape]

end Linkage.Description
