import ComponentScan.Json.Decode
import ComponentScan.Patch

/-!
# JSON form of back-patches

An update is an object of two strings; the location is not looked at before it is used. An outcome
is its name, or an object with that name over null.
-/

namespace ComponentScan

open Json Json.Value

namespace CrossReferenceUpdate

def encode (u : CrossReferenceUpdate) : Value :=
  .object [("sourceLocation", .string u.sourceLocation), ("permalink", .string u.permalink)]

def schema : Schema :=
  [field "sourceLocation" asString, field "permalink" asString]

def decode (v : Value) : Decoded CrossReferenceUpdate := do
  let f ← asFields schema 2 v
  return {
    sourceLocation := ← f.get "sourceLocation" asString
    permalink := ← f.get "permalink" asString }

end CrossReferenceUpdate

namespace PatchOutcome

def name : PatchOutcome → String
  | patched => "patched"
  | unchanged => "unchanged"
  | tagNotFound => "tagNotFound"

def encode (o : PatchOutcome) : Value :=
  .string o.name

/-- The outcome of a name. -/
def ofName (s : String) : Decoded PatchOutcome :=
  match [patched, unchanged, tagNotFound].find? (·.name = s) with
  | some o => .ok o
  | none => .error .wrongShape

/-- What follows the name of an outcome in an object: null, and the end of the object. -/
def decodeUnit : Value → List (String × Value) → Decoded Unit
  | .null, [] => .ok ()
  | .null, (_, .broken problem) :: _ => .error problem
  | .null, _ => .error .notJson
  | v, _ => v.mismatch

/-- An outcome. Text that neither opens a string nor an object is refused at its first character. -/
def decode : Value → Decoded PatchOutcome
  | .string s => ofName s
  | .object [] => throw .notJson
  | .object (("", .broken problem) :: _) => throw problem
  | .object ((name, v) :: rest) => do
    let o ← ofName name
    decodeUnit v rest
    return o
  | .broken problem => throw problem
  | _ => throw .notJson

end PatchOutcome

end ComponentScan
