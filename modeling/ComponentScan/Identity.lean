import ComponentScan.Session

/-!
# Identities

The identity of a node is the path of its file and the name of its symbol. Identifiers have their
own symbol; a declaration has that of its name, and a list of variables that of its first variable.
Nothing else has an identity.
-/

namespace ComponentScan

open Syntax

/-- The child that stands for a node in the search for a symbol. -/
def nameBearer? (n : Node) : Option Node :=
  match n.kind with
  | .function true | .classNode true => n.id?
  | .variableDeclaration _ => n.children.head?
  | .variableDeclarator => n.binding?.filter (·.kind.isBindingIdentifier)
  | .tsInterfaceDeclaration | .tsTypeAliasDeclaration | .tsEnumDeclaration => n.id?
  | _ => none

/-! ## Names of nodes in messages -/

/-- The name of a node, or what stands for it. -/
def nameOr (otherwise : String) (n : Option Node) : String :=
  (n.bind Node.text?).getD otherwise

/-- The last name of a callee. -/
def Session.calleeName? (s : Session) (callee : Node) : Option String :=
  match callee.kind, callee.children with
  | .identifierReference name, _ => some name
  | .staticMemberExpression, [_, property] => property.text?
  | .computedMemberExpression, [_, ⟨.stringLiteral value, _, _⟩] => some value
  | .computedMemberExpression, [_, ⟨.templateLiteral, _, [piece]⟩] => some (s.print piece)
  | _, _ => none

/-- The parts of the name of a node besides its kind. -/
def Session.nodeDetail? (s : Session) (n : Node) : Option String :=
  match n.kind with
  | .function _ | .classNode _ => some (nameOr "<anonymous>" n.id?)
  | .variableDeclarator => some (nameOr "<destructure>" n.binding?)
  | .formalParameter => some (nameOr "<destructure>" (n.child? (!·.isDecorator)))
  | .identifierReference name | .bindingIdentifier name => some name
  | .importSpecifier _ => some (nameOr "" n.id?)
  | .callExpression => some ((n.children.head?.bind s.calleeName?).getD "<computed>")
  | .tsEnumDeclaration | .tsModuleDeclaration => some (nameOr "" n.children.head?)
  | _ => none

/-- The name of a node in messages. -/
def Session.nodeName (s : Session) (n : Node) : String :=
  match s.nodeDetail? n with
  | some detail => s!"{n.kind.name}({detail})"
  | none => n.kind.name

/-! ## Resolution -/

/-- The identity of a symbol. -/
def Session.identityOf (s : Session) (symbol : Scope.Symbol) : Identity :=
  s!"{s.path}:{symbol.name}"

/-- Follows name bearers at most `steps` times until a node has a symbol. -/
def Session.identifyWithin (s : Session) : (steps : Nat) → Node → Except ScanError Identity
  | steps, n =>
    match s.symbolAt? n with
    | some symbol => .ok (s.identityOf symbol)
    | none =>
      match steps, nameBearer? n with
      | steps + 1, some child => s.identifyWithin steps child
      | _, _ => .error (.unresolvableIdentity (s.nodeName n) (s.print n))

/-- The identity of a node. A name bearer of a name bearer is an identifier. -/
def Session.identify (s : Session) (n : Node) : Except ScanError Identity :=
  s.identifyWithin 2 n

end ComponentScan
