import ComponentScan.PrintedNames
import ComponentScan.Scan.FunctionComponent

/-!
# Class components

A class component is a named class declaration, wherever it stands, whose base is written as one of
the configured names. What its `render` member renders are its references; every other member that
holds a template is a component of its own.
-/

namespace ComponentScan

open Syntax

/-- The name of a member by its key, unless it is computed. Private names start with a number
sign. -/
def memberName? (key : Node) : Option String :=
  match key.kind with
  | .identifierName name => some name
  | .privateIdentifier name => some ("#" ++ name)
  | .stringLiteral value => some value
  | _ => none

namespace ClassComponent

/-- What a member of a class contributes to the component. -/
inductive MemberPart
  /-- The references of the class are in the node. -/
  | render (body : Node)
  /-- The node may hold a template. -/
  | helper (name : String) (root : Node)

/-- The part of a method, unless it is the constructor or has no body. -/
def methodPart? (role : MethodRole) (name : String) (method : Node) : Option MemberPart := do
  let body ← (← method.memberValue?).functionBody?
  match role with
  | .constructor => none
  | .method => return if name == "render" then .render body else .helper name body
  | .getter | .setter => return .helper name body

/-- The part of a property with a value. -/
def propertyPart? (isStatic : Bool) (name : String) (property : Node) : Option MemberPart := do
  let value ← property.memberValue?
  match FunctionComponent.expressionBody? value with
  | some body => return if name == "render" && !isStatic then .render body else .helper name value
  | none => return .helper name value

/-- The part of a member. -/
def memberPart? (member : Node) : Option MemberPart := do
  let name ← member.memberKey?.bind memberName?
  match member.kind with
  | .methodDefinition role _ => methodPart? role name member
  | .propertyDefinition isStatic => propertyPart? isStatic name member
  | _ => none

/-- The identity of a member that renders. -/
def memberIdentity (owner : Identity) (member : String) : Identity :=
  s!"{owner}.{member}()"

/-- Records a member that renders as a component of its own. -/
def recordHelper (s : Session) (className : String) (owner : Identity) (name : String)
    (member root : Node) (indent : Nat) : Scan Unit := do
  if containsTemplate root then
    let references ← findJsx s root indent
    let candidate : Candidate := ⟨s!"{className}.{name}", member, .nested, member.start⟩
    recordDefinition s candidate (memberIdentity owner name) references indent

/-- Takes a member: `references` are those of the class so far. The last `render` member counts. -/
def takeMember (s : Session) (className : String) (owner : Identity) (indent : Nat)
    (references : List Identity) (member : Node) : Scan (List Identity) := do
  match memberPart? member with
  | some (.render body) => findJsx s body indent
  | some (.helper name root) =>
    recordHelper s className owner name member root indent
    return references
  | none => return references

/-- Records a class that extends a component base. -/
def recordClass (s : Session) (v : Visit) (name : String) (indent : Nat) : Scan Unit := do
  let id ← Scan.identify s v.node
  let references ← v.node.classMembers.foldlM (takeMember s name id indent) []
  let placement := Placement.ofContainers v.ancestors
  let candidate : Candidate := ⟨name, v.node, placement, placement.docAnchor v.node.start⟩
  recordDefinition s candidate id references indent

/-- Records the component that a class declaration with a name and a base defines. -/
def visit (config : Config) (s : Session) (v : Visit) (indent : Nat) : Scan Unit := do
  let bases : PrintedNames := ⟨config.componentBaseClasses⟩
  match v.node.kind, v.node.id?.bind Node.text?, v.node.superClass? with
  | .classNode true, some name, some base =>
    let printed := s.printCompact base
    if bases.matchesText printed then recordClass s v name indent
    else Scan.log indent s!"class {name} extends {printed}: not a {bases.describe}"
  | _, _, _ => return

/-- The detector of class components. -/
def detector : Detector :=
  ⟨"class-component", visit⟩

end ClassComponent

end ComponentScan
