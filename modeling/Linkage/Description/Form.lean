import Linkage.Description.Part

namespace Linkage.Description

open Markup

-- The fields that a kind of element has, what each is called and how it is read. A field that
-- may be there many times also says how two readings of it are put together.
structure Form (ι : Type) (β : ι → Type) where
  fields : List ι
  label : ι → String
  read : (field : ι) → Part → Reading (β field)
  join? : (field : ι) → Option (β field → β field → β field)

-- What has been read so far, a value for each field that was there.
abbrev Filled {ι : Type} (β : ι → Type) :=
  (field : ι) → Option (β field)

namespace Filled

variable {ι : Type} [DecidableEq ι] {β : ι → Type}

def blank : Filled β :=
  fun _ => none

def set (filled : Filled β) (field : ι) (value : β field) : Filled β :=
  fun other => if h : field = other then some (h ▸ value) else filled other

end Filled

namespace Form

variable {ι : Type} [DecidableEq ι] {β : ι → Type}

def field? (form : Form ι β) (label : String) : Option ι :=
  form.fields.find? fun field => form.label field == label

-- Reads parts in order. Parts that the form does not have are passed over if they can be read. A
-- field may come again only if it can be there many times and nothing else came between.
def fill (form : Form ι β) (last : Option ι) (filled : Filled β) : List Part → Reading (Filled β)
  | [] => pure filled
  | part :: rest =>
      match part.label?.bind form.field? with
      | none => if part.isReadable then form.fill none filled rest else throw .malformed
      | some field =>
          match filled field with
          | none => do
              let value ← form.read field part
              form.fill (some field) (filled.set field value) rest
          | some before =>
              match form.join? field with
              | none => throw (.duplicate (form.label field))
              | some join =>
                  if last = some field then do
                    let value ← form.read field part
                    form.fill (some field) (filled.set field (join before value)) rest
                  else throw (.duplicate (form.label field))

def readAll (form : Form ι β) (node : Node) : Reading (Filled β) :=
  form.fill none .blank node.parts

def require (form : Form ι β) (filled : Filled β) (field : ι) : Reading (β field) :=
  match filled field with
  | some value => pure value
  | none => throw (.missing (form.label field))

-- A form whose fields are all of one type and go by their labels, each at most once.
def uniform {γ : Type} (fields : List String) (read : String → Part → Reading γ) :
    Form String (fun _ => γ) where
  fields := fields
  label := id
  read := read
  join? _ := none

end Form

-- Reads an element with one field that has to be there.
def readSole {γ : Type} (label : String) (read : Part → Reading γ) (node : Node) :
    Reading γ := do
  let form := Form.uniform [label] fun _ => read
  form.require (← form.readAll node) label

end Linkage.Description
