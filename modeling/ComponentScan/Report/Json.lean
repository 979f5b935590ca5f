import ComponentScan.Json.Decode
import ComponentScan.Report.Basic

/-!
# JSON form of reports

Every record has an encoder and a decoder; the decoder accepts what the encoder produces. A key that
an annotation lacks is left out, a name or signature that a component lacks is null.

The kind of a component record stands among its own fields, so a record is read as a whole before
its fields are looked at. The fields of the repository stand among those of the report.
-/

namespace ComponentScan

open Json Json.Value

/-- Null or the string. -/
def encodeOption (s : Option String) : Value :=
  match s with
  | some s => .string s
  | none => .null

/-- The member for something that may be left out. -/
def encodeMember {α : Type} (name : String) (encode : α → Value) (a : Option α) :
    List (String × Value) :=
  match a with
  | some a => [(name, encode a)]
  | none => []

namespace SourceLocation

def encode (l : SourceLocation) : Value :=
  .string l.text

/-- A string that is a written location. -/
def decode (v : Value) : Decoded SourceLocation := do
  let s ← asString v
  match parse s with
  | .ok l => return l
  | .error _ => throw .wrongShape

end SourceLocation

namespace RepoMetadata

def members (r : RepoMetadata) : List (String × Value) :=
  [("revision", .string r.revision), ("remoteOrigin", .string r.remoteOrigin)]

def encode (r : RepoMetadata) : Value :=
  .object r.members

def schema : Schema :=
  [field "revision" asString, field "remoteOrigin" asString]

def decode (v : Value) : Decoded RepoMetadata := do
  let f ← asFields schema 2 v
  return { revision := ← f.get "revision" asString, remoteOrigin := ← f.get "remoteOrigin" asString }

end RepoMetadata

namespace SymbolDescriptor

def encode (d : SymbolDescriptor) : Value :=
  .object [
    ("path", .string d.path),
    ("sourceLocation", d.sourceLocation.encode),
    ("name", .string d.name),
    ("documentation", .string d.documentation),
    ("typeSignature", encodeOption d.typeSignature)]

def schema : Schema :=
  [field "path" asString, field "sourceLocation" SourceLocation.decode, field "name" asString,
    field "documentation" asString, field "typeSignature" (asOption asString)]

def decode (v : Value) : Decoded SymbolDescriptor := do
  let f ← asFields schema 5 v
  return {
    path := ← f.get "path" asString
    sourceLocation := ← f.get "sourceLocation" SourceLocation.decode
    name := ← f.get "name" asString
    documentation := ← f.get "documentation" asString
    typeSignature := ← f.getD "typeSignature" (asOption asString) none }

end SymbolDescriptor

namespace DefinedComponent

def members (c : DefinedComponent) : List (String × Value) :=
  [("name", .string c.name),
    ("sourceLocation", c.sourceLocation.encode),
    ("exportedAs", encodeOption c.exportedAs),
    ("referencedComponents", .array (c.referencedComponents.map .string)),
    ("meta", c.description.encode)]

def encode (c : DefinedComponent) : Value :=
  .object c.members

def schema : Schema :=
  [field "name" asString, field "sourceLocation" SourceLocation.decode,
    field "exportedAs" (asOption asString), field "referencedComponents" (asList asString),
    field "meta" SymbolDescriptor.decode]

def decode (v : Value) : Decoded DefinedComponent := do
  let f ← asFields schema 5 v
  return {
    name := ← f.get "name" asString
    sourceLocation := ← f.get "sourceLocation" SourceLocation.decode
    exportedAs := ← f.getD "exportedAs" (asOption asString) none
    referencedComponents := ← f.get "referencedComponents" (asList asString)
    description := ← f.get "meta" SymbolDescriptor.decode }

end DefinedComponent

namespace ReferencedComponent

def members (c : ReferencedComponent) : List (String × Value) :=
  [("name", .string c.name), ("definitionLocation", .string c.definitionLocation)]

def schema : Schema :=
  [field "name" asString, field "definitionLocation" asString]

def decode (v : Value) : Decoded ReferencedComponent := do
  let f ← asFields schema 2 v
  return {
    name := ← f.get "name" asString
    definitionLocation := ← f.get "definitionLocation" asString }

end ReferencedComponent

namespace ComponentRecord

def encode : ComponentRecord → Value
  | defined c => .object (("kind", .string "defined") :: c.members)
  | referenced c => .object (("kind", .string "referenced") :: c.members)

/-- The kinds of records. -/
inductive Kind
  | defined | referenced

/-- The name of a kind. -/
def decodeKind (v : Value) : Decoded Kind := do
  match ← asString v with
  | "defined" => return .defined
  | "referenced" => return .referenced
  | _ => throw .wrongShape

/-- Decodes the fields of a record of known kind. The record has been read, so all that can be wrong
is its shape. -/
def decodeAs (kind : Kind) (v : Value) : Decoded ComponentRecord :=
  match kind with
  | .defined => (defined <$> DefinedComponent.decode v).mapError fun _ => .wrongShape
  | .referenced => (referenced <$> ReferencedComponent.decode v).mapError fun _ => .wrongShape

/-- Reads the members of a record in order: its kind, once, and the others. -/
def splitMembers (depth : Nat) :
    Option Kind → List (String × Value) → Decoded (Option Kind × List (String × Value))
  | kind, [] => .ok (kind, [])
  | kind, (name, v) :: rest => do
    if name = "kind" then
      if kind.isSome then throw .wrongShape
      splitMembers depth (some (← decodeKind v)) rest
    else
      readable depth v
      let (kind, others) ← splitMembers depth kind rest
      return (kind, (name, v) :: others)

/-- Decodes a record that stands inside arrays and objects, of which `depth` more may be opened. -/
def decode (depth : Nat) : Value → Decoded ComponentRecord
  | .object members => do
    match ← splitMembers (depth - 1) none members with
    | (some kind, others) => decodeAs kind (.object others)
    | (none, _) => throw .wrongShape
  | .array [] => throw .wrongShape
  | .array (k :: items) => do
    let kind ← decodeKind k
    readableItems (depth - 1) items
    decodeAs kind (.array items)
  | v => v.mismatch

end ComponentRecord

namespace CrossReference

def encode (x : CrossReference) : Value :=
  .object <|
    [("text", .string x.text),
      ("sourceLocation", x.sourceLocation.encode),
      ("parentNodeIdentity", .string x.parentIdentity)] ++
    encodeMember "permalink" .string x.permalink

def schema : Schema :=
  [field "text" asString, field "sourceLocation" SourceLocation.decode,
    field "parentNodeIdentity" asString, field "permalink" (asOption asString)]

def decode (v : Value) : Decoded CrossReference := do
  let f ← asFields schema 3 v
  return {
    text := ← f.get "text" asString
    sourceLocation := ← f.get "sourceLocation" SourceLocation.decode
    parentIdentity := ← f.get "parentNodeIdentity" asString
    permalink := ← f.getD "permalink" (asOption asString) none }

end CrossReference

namespace Annotation

def encode (a : Annotation) : Value :=
  .object <|
    [("sourceLocation", a.sourceLocation.encode),
      ("text", .string a.text),
      ("parentNodeIdentity", .string a.parentIdentity)] ++
    encodeMember "sequenceKey" .natural a.sequenceKey ++
    encodeMember "crossReference" CrossReference.encode a.crossReference

def schema : Schema :=
  [field "sourceLocation" SourceLocation.decode, field "text" asString,
    field "parentNodeIdentity" asString, field "sequenceKey" (asOption asWord),
    field "crossReference" (asOption CrossReference.decode)]

def decode (v : Value) : Decoded Annotation := do
  let f ← asFields schema 3 v
  return {
    sourceLocation := ← f.get "sourceLocation" SourceLocation.decode
    text := ← f.get "text" asString
    parentIdentity := ← f.get "parentNodeIdentity" asString
    sequenceKey := ← f.getD "sequenceKey" (asOption asWord) none
    crossReference := ← f.getD "crossReference" (asOption CrossReference.decode) none }

end Annotation

namespace ComponentTable

def encode (t : ComponentTable) : Value :=
  .object (t.entries.map fun (id, record) => (id, record.encode))

/-- An object of records; of two with one identity the later stays. -/
def decode (depth : Nat) : Value → Decoded ComponentTable
  | .object members =>
    members.foldlM (fun t (id, v) => return t.insert id (← ComponentRecord.decode (depth - 1) v))
      .empty
  | v => v.mismatch

end ComponentTable

namespace ScanReport

def encode (r : ScanReport) : Value :=
  .object <|
    [("path", .string r.path),
      ("exports", .array (r.exports.map .string)),
      ("components", r.components.encode),
      ("annotations", .array (r.annotations.map Annotation.encode)),
      ("debugLog", .array (r.debugLog.map .string))] ++ r.repo.members

/-- The fields of a report itself. -/
def schema (depth : Nat) : Schema :=
  [field "path" asString, field "exports" (asList asString),
    field "components" (ComponentTable.decode (depth - 1)),
    field "annotations" (asList Annotation.decode), field "debugLog" (asList asString)]

/-- Reads the members of a report in order: its own fields and the others. -/
def splitMembers (depth : Nat) :
    Fields → List (String × Value) → Decoded (Fields × List (String × Value))
  | fields, [] => .ok (fields, [])
  | fields, (name, v) :: rest => do
    if ((schema depth).lookup name).isSome then
      splitMembers depth (← takeMember (schema depth) fields name v) rest
    else
      readable (depth - 1) v
      let (fields, others) ← splitMembers depth fields rest
      return (fields, (name, v) :: others)

/-- Decodes a report that stands inside arrays and objects, of which `depth` more may be opened. -/
def decode (depth : Nat) : Value → Decoded ScanReport
  | .object members => do
    let (f, others) ← splitMembers depth [] members
    return {
      path := ← f.get "path" asString
      exports := ← f.get "exports" (asList asString)
      components := ← f.get "components" (ComponentTable.decode (depth - 1))
      annotations := ← f.get "annotations" (asList Annotation.decode)
      debugLog := ← f.get "debugLog" (asList asString)
      repo := ← (RepoMetadata.decode (.object others)).mapError fun _ => .wrongShape }
  | v => v.mismatch

end ScanReport

namespace IndexEntry

def encode (e : IndexEntry) : Value :=
  .object [
    ("filename", .string e.filename),
    ("itemName", .string e.itemName),
    ("sourceLocation", e.sourceLocation.encode)]

def schema : Schema :=
  [field "filename" asString, field "itemName" asString,
    field "sourceLocation" SourceLocation.decode]

def decode (v : Value) : Decoded IndexEntry := do
  let f ← asFields schema 3 v
  return {
    filename := ← f.get "filename" asString
    itemName := ← f.get "itemName" asString
    sourceLocation := ← f.get "sourceLocation" SourceLocation.decode }

end IndexEntry

end ComponentScan
