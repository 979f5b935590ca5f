import ComponentScan.Scan.Definition

/-!
# Function components

A function component is a named function declaration, or a variable bound to a function, at the top
level of its file or in an export there, whose body holds a template.
-/

namespace ComponentScan.FunctionComponent

open Syntax

/-- The body of a function as an expression. -/
def expressionBody? (e : Node) : Option Node :=
  match e.kind with
  | .arrowFunctionExpression | .function _ => e.functionBody?
  | _ => none

/-- The candidate that a function declaration is, and its body. -/
def ofFunction? (v : Visit) : Option (Candidate × Node) := do
  let name ← v.node.id?.bind Node.text?
  let body ← v.node.functionBody?
  let placement := Placement.ofContainers v.ancestors
  return (⟨name, v.node, placement, placement.docAnchor v.node.start⟩, body)

/-- The candidate that a variable bound to a function is, and the body of the function. Its
documentation leads the list of variables. -/
def ofVariable? (v : Visit) : Option (Candidate × Node) := do
  let name ← v.node.binding?.bind Node.text?
  let body ← v.node.initializer?.bind expressionBody?
  let list ← v.parent?.filter (·.kind.isVariableDeclaration)
  let placement := Placement.ofContainers v.ancestors.dropLast
  return (⟨name, v.node, placement, placement.docAnchor list.start⟩, body)

/-- The candidate that a node is, wherever it stands, and the body that is searched. -/
def candidate? (v : Visit) : Option (Candidate × Node) :=
  match v.node.kind with
  | .function true => ofFunction? v
  | .variableDeclarator => ofVariable? v
  | _ => none

/-- Records the component that a node defines. -/
def visit (s : Session) (v : Visit) (indent : Nat) : Scan Unit := do
  match candidate? v with
  | some (candidate, body) =>
    if candidate.placement.isTopLevel && containsTemplate body then
      let id ← Scan.identify s candidate.declaration
      let references ← findJsx s body indent
      recordDefinition s candidate id references indent
  | none => return

/-- The detector of function components. -/
def detector : Detector :=
  ⟨"function-component", fun _ => visit⟩

end ComponentScan.FunctionComponent
