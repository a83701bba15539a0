import Linkage.Description.Form

namespace Linkage.Description

open Markup

-- A field whose value is of no use here and only has to be readable.
structure Check where
  label : String
  required : Bool
  run : Part → Reading Unit

namespace Check

variable {β : Type}

def needed (label : String) (read : Part → Reading β) : Check :=
  ⟨label, true, fun part => do let _ ← read part⟩

def allowed (label : String) (read : Part → Reading β) : Check :=
  ⟨label, false, fun part => do let _ ← read part⟩

def named (checks : List Check) (label : String) : Option Check :=
  checks.find? fun check => check.label == label

def form (checks : List Check) : Form String (fun _ => Unit) :=
  .uniform (checks.map label) fun label part =>
    match named checks label with
    | some check => check.run part
    | none => pure ()

-- Whether an element fills a form, all of whose values are dropped.
def all (checks : List Check) (node : Node) : Reading Unit := do
  let filled ← (form checks).readAll node
  for check in checks do
    if check.required then (form checks).require filled check.label

end Check

def text : Part → Reading String :=
  Part.plain pure

end Linkage.Description
