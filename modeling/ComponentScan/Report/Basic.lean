import ComponentScan.FilePath
import ComponentScan.Location

/-!
# Scan reports

A report is what one scan learned about one file: the components, keyed and ordered by identity, the
exported identities in the order in which they were marked, and the annotations in the order in
which they were found.

The records obey two rules, whatever order the calls come in. A definition replaces a mere reference
and is never replaced; among references, as among definitions, the first one stays.
-/

namespace ComponentScan

/-- The key of a declaration: `<path>:<name>`, or `<class identity>.<member>()` for a member that
renders. -/
abbrev Identity := String

/-- Where a component is defined that no symbol of the file names. -/
def unresolvedLocation : String := "?"

/-- The revision and the canonical remote of a repository. -/
structure RepoMetadata where
  revision : String
  remoteOrigin : String
  deriving Repr, DecidableEq, Inhabited

/-- What stands for metadata that cannot be found out. -/
def RepoMetadata.placeholder : RepoMetadata :=
  ⟨"HEAD", "unknown"⟩

/-- The public description of a declaration. -/
structure SymbolDescriptor where
  path : String
  sourceLocation : SourceLocation
  name : String
  documentation : String
  typeSignature : Option String
  deriving Repr, DecidableEq, Inhabited

structure DefinedComponent where
  name : String
  sourceLocation : SourceLocation
  exportedAs : Option String
  referencedComponents : List Identity
  description : SymbolDescriptor
  deriving Repr, DecidableEq, Inhabited

structure ReferencedComponent where
  name : String
  /-- A location, a module specifier, or a question mark. -/
  definitionLocation : String
  deriving Repr, DecidableEq, Inhabited

inductive ComponentRecord
  | defined (component : DefinedComponent)
  | referenced (component : ReferencedComponent)
  deriving Repr, DecidableEq, Inhabited

namespace ComponentRecord

def name : ComponentRecord → String
  | defined c => c.name
  | referenced c => c.name

def asDefined? : ComponentRecord → Option DefinedComponent
  | defined c => some c
  | referenced _ => none

end ComponentRecord

/-- The link of an annotation to an artifact. -/
structure CrossReference where
  text : String
  sourceLocation : SourceLocation
  parentIdentity : Identity
  permalink : Option String
  deriving Repr, DecidableEq, Inhabited

structure Annotation where
  sourceLocation : SourceLocation
  text : String
  parentIdentity : Identity
  sequenceKey : Option Nat
  crossReference : Option CrossReference
  deriving Repr, DecidableEq, Inhabited

/-- An annotation without a cross-reference marks pending work. -/
def Annotation.isPendingWork (a : Annotation) : Bool :=
  a.crossReference.isNone

/-! ## Records by identity -/

/-- Component records in the order of their identities. -/
structure ComponentTable where
  entries : List (Identity × ComponentRecord)
  deriving Repr, DecidableEq, Inhabited

namespace ComponentTable

def empty : ComponentTable := ⟨[]⟩

/-- The record of an identity. -/
def get? (t : ComponentTable) (id : Identity) : Option ComponentRecord :=
  t.entries.lookup id

/-- Puts a record before the first greater identity, in place of one with the same identity. -/
def insertInto (id : Identity) (record : ComponentRecord) :
    List (Identity × ComponentRecord) → List (Identity × ComponentRecord)
  | [] => [(id, record)]
  | (k, r) :: rest =>
    if id = k then (id, record) :: rest
    else if id < k then (id, record) :: (k, r) :: rest
    else (k, r) :: insertInto id record rest

/-- Sets the record of an identity. -/
def insert (t : ComponentTable) (id : Identity) (record : ComponentRecord) : ComponentTable :=
  ⟨insertInto id record t.entries⟩

end ComponentTable

/-! ## Reports -/

structure ScanReport where
  path : String
  exports : List Identity
  components : ComponentTable
  annotations : List Annotation
  debugLog : List String
  repo : RepoMetadata
  deriving Repr, DecidableEq, Inhabited

/-- A row of the index of a report. -/
structure IndexEntry where
  filename : String
  itemName : String
  sourceLocation : SourceLocation
  deriving Repr, DecidableEq, Inhabited

namespace ScanReport

/-- A report that has learned nothing yet. -/
def fresh (path : String) (repo : RepoMetadata) : ScanReport :=
  ⟨path, [], .empty, [], [], repo⟩

/-- The definition recorded for an identity. -/
def defined? (r : ScanReport) (id : Identity) : Option DefinedComponent :=
  (r.components.get? id).bind ComponentRecord.asDefined?

/-- Records a definition unless there is one already; says whether it did. -/
def define (r : ScanReport) (id : Identity) (c : DefinedComponent) : Bool × ScanReport :=
  match r.defined? id with
  | some _ => (false, r)
  | none => (true, { r with components := r.components.insert id (.defined c) })

/-- Records a reference unless there is any record already; says whether it did. -/
def reference (r : ScanReport) (id : Identity) (c : ReferencedComponent) : Bool × ScanReport :=
  match r.components.get? id with
  | some _ => (false, r)
  | none => (true, { r with components := r.components.insert id (.referenced c) })

/-- Adds an identity to the exports, once. -/
def markExported (r : ScanReport) (id : Identity) : ScanReport :=
  if r.exports.contains id then r else { r with exports := r.exports ++ [id] }

/-- Changes the definition of an identity, if there is one. -/
def updateDefined (r : ScanReport) (id : Identity) (f : DefinedComponent → DefinedComponent) :
    ScanReport :=
  match r.defined? id with
  | some c => { r with components := r.components.insert id (.defined (f c)) }
  | none => r

/-- Adds an annotation at the end. -/
def annotate (r : ScanReport) (a : Annotation) : ScanReport :=
  { r with annotations := r.annotations ++ [a] }

/-- The first line of a text without its line end. -/
def firstLine (s : String) : String :=
  match s.toList.span (· ≠ '\n') with
  | (line, []) => String.ofList line
  | (line, _) => String.ofList ((Text.dropEnd? ['\r'] line).getD line)

/-- The index: the defined components in the order of their identities, then the annotations. -/
def indexEntries (r : ScanReport) : List IndexEntry :=
  let filename := FilePath.fileName r.path
  let components := r.components.entries.filterMap fun (_, record) =>
    record.asDefined?.map fun c => ⟨filename, c.name, c.sourceLocation⟩
  components ++ r.annotations.map fun a => ⟨filename, firstLine a.text, a.sourceLocation⟩

end ScanReport

/-! ## Sequence keys -/

/-- What an annotation says, its place and its key left out. -/
structure Annotation.Content where
  text : String
  parentIdentity : Identity
  crossReference : Option (String × Identity × Option String)
  deriving DecidableEq

def Annotation.content (a : Annotation) : Annotation.Content :=
  ⟨a.text, a.parentIdentity, a.crossReference.map fun x => (x.text, x.parentIdentity, x.permalink)⟩

namespace Annotation

/-- How often contents have been seen; the latest count of a content comes first. -/
structure Tally where
  counts : List (Content × Nat) := []

namespace Tally

/-- How often a content has been seen. -/
def count (t : Tally) (c : Content) : Nat :=
  (t.counts.lookup c).getD 0

/-- Sees a content once more. -/
def add (t : Tally) (c : Content) : Tally :=
  ⟨(c, t.count c + 1) :: t.counts⟩

@[simp] theorem count_empty (c : Content) : ({} : Tally).count c = 0 := rfl

@[simp] theorem count_add (t : Tally) (c c' : Content) :
    (t.add c).count c' = t.count c' + if c' = c then 1 else 0 := by
  by_cases h : c' = c
  · subst h
    simp [count, add]
  · simp [count, add, List.lookup_cons, beq_eq_false_iff_ne.2 h, h]

end Tally

end Annotation

/-- Numbers annotations of equal content, given how often their contents came before: the first one
has no key, and each later one has the number of its predecessors. -/
def assignSequenceKeysFrom (seen : Annotation.Tally) : List Annotation → List Annotation
  | [] => []
  | a :: rest =>
    let count := seen.count a.content
    { a with sequenceKey := if count = 0 then none else some count } ::
      assignSequenceKeysFrom (seen.add a.content) rest

/-- Numbers annotations of equal content. -/
def assignSequenceKeys (annotations : List Annotation) : List Annotation :=
  assignSequenceKeysFrom {} annotations

end ComponentScan
