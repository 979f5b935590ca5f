import ComponentScan.Scan.Template

/-!
# Definitions of components

What the detectors of defined components share: where a declaration stands in its file, and how a
definition is recorded.
-/

namespace ComponentScan

open Syntax

/-- Where a declaration stands; an export has a start of its own. -/
inductive Placement
  | nested
  | topLevel
  | namedExport (start : Nat)
  | defaultExport (start : Nat)
  deriving Repr, DecidableEq, Inhabited

namespace Placement

/-- The placement of a declaration in its containers, the outermost first. -/
def ofContainers (containers : List Node) : Placement :=
  match containers.reverse with
  | ⟨.program, _, _⟩ :: _ => topLevel
  | ⟨.exportNamedDeclaration _, span, _⟩ :: ⟨.program, _, _⟩ :: _ => namedExport span.start
  | ⟨.exportDefaultDeclaration, span, _⟩ :: ⟨.program, _, _⟩ :: _ => defaultExport span.start
  | _ => nested

def isTopLevel (p : Placement) : Bool :=
  p != nested

/-- The name under which a declaration is exported where it stands. -/
def exportedAs? (p : Placement) (name : String) : Option String :=
  match p with
  | namedExport _ => some name
  | defaultExport _ => some "default"
  | nested | topLevel => none

/-- The token that the documentation of a declaration leads: the export, or its own first one. -/
def docAnchor (p : Placement) (start : Nat) : Nat :=
  match p with
  | namedExport start | defaultExport start => start
  | nested | topLevel => start

end Placement

/-- A definition but for its identity and references. -/
structure Candidate where
  name : String
  declaration : Node
  placement : Placement
  docAnchor : Nat

/-- The component that a candidate defines. -/
def Candidate.component (c : Candidate) (s : Session) (references : List Identity) :
    DefinedComponent where
  name := c.name
  sourceLocation := s.location c.declaration.span
  exportedAs := c.placement.exportedAs? c.name
  referencedComponents := references
  description := s.describe c.name c.declaration c.docAnchor

/-- Records a definition, unless its identity is defined already, and its export. -/
def recordDefinition (s : Session) (c : Candidate) (id : Identity) (references : List Identity)
    (indent : Nat) : Scan Unit := do
  let component := c.component s references
  if ← Scan.update (·.define id component) then
    if component.exportedAs.isSome then Scan.update fun report => ((), report.markExported id)
    Scan.log indent s!"defined {id}"
  else Scan.log indent s!"{id} already defined, keeping first"

end ComponentScan
