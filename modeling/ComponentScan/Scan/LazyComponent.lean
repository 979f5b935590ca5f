import ComponentScan.PrintedNames
import ComponentScan.Scan.Template

/-!
# Deferred components

A variable whose initialiser calls one of the configured wrappers around a dynamic import is a
component that another module defines: it is recorded as referenced, with the imported module as the
place of its definition.
-/

namespace ComponentScan.LazyComponent

open Syntax

/-- Whether a node calls one of the wrappers. -/
def isWrapper (wrappers : PrintedNames) (s : Session) (n : Node) : Bool :=
  match n.kind, n.children with
  | .callExpression, callee :: _ => wrappers.matchesText (s.printCompact callee)
  | _, _ => false

/-- The ancestors of the innermost wrapper among some ancestors, the innermost first. -/
def aboveWrapper? (wrappers : PrintedNames) (s : Session) (ancestors : List Node) :
    Option (List Node) :=
  match ancestors.reverse.dropWhile (!isWrapper wrappers s ·) with
  | _ :: above => some above
  | [] => none

/-- The name of a variable, or the text of the pattern in its place. -/
def variableName (s : Session) (declarator : Node) : String :=
  match declarator.binding? with
  | some target => target.text?.getD (s.print target)
  | none => ""

/-- The module that an import names, unless it is computed. -/
def importedModule (n : Node) : String :=
  match n.children.head?.map Node.kind with
  | some (.stringLiteral value) => value
  | _ => unresolvedLocation

/-- Records a component whose module is imported by a node. -/
def recordLazy (s : Session) (declarator n : Node) (indent : Nat) : Scan Unit := do
  let id ← Scan.identify s declarator
  let component : ReferencedComponent := ⟨variableName s declarator, importedModule n⟩
  if ← Scan.update (·.reference id component) then Scan.log indent s!"lazy {id}"

/-- Records the component that a dynamic import defers. -/
def visit (config : Config) (s : Session) (v : Visit) (indent : Nat) : Scan Unit := do
  match v.node.kind with
  | .importExpression =>
    match aboveWrapper? ⟨config.lazyLoadCallees⟩ s v.ancestors with
    | none => Scan.log indent "dynamic import outside a lazy wrapper"
    | some above =>
      match above.find? (·.kind.isVariableDeclarator) with
      | none => Scan.log indent "lazy wrapper is not bound to a variable"
      | some declarator => recordLazy s declarator v.node indent
  | _ => return

/-- The detector of deferred components. -/
def detector : Detector :=
  ⟨"lazy-component", visit⟩

end ComponentScan.LazyComponent
