import ComponentScan.Syntax.Kind
import ComponentScan.Text.Bytes

/-!
# Syntax trees

A node has a kind, the place of its text, and its children in the order in which a traversal visits
them. The accessors below read a child off its kind or its position; which children a node has is
fixed by the grammar.
-/

namespace ComponentScan.Syntax

/-- A node of a syntax tree. -/
structure Node where
  kind : Kind
  span : Span
  children : List Node
  deriving Inhabited

namespace Node

def start (n : Node) : Nat := n.span.start

def stop (n : Node) : Nat := n.span.stop

/-- The first child that satisfies `p`. -/
def child? (n : Node) (p : Kind → Bool) : Option Node :=
  n.children.find? fun c => p c.kind

/-- The child at a position. -/
def nth? (n : Node) (i : Nat) : Option Node :=
  n.children[i]?

end Node

namespace Kind

def isBindingIdentifier : Kind → Bool
  | bindingIdentifier _ => true
  | _ => false

def isFunctionBody : Kind → Bool
  | functionBody => true
  | _ => false

def isFormalParameters : Kind → Bool
  | formalParameters => true
  | _ => false

def isTypeParameters : Kind → Bool
  | tsTypeParameterDeclaration => true
  | _ => false

def isTypeArguments : Kind → Bool
  | tsTypeParameterInstantiation => true
  | _ => false

def isTypeAscription : Kind → Bool
  | tsTypeAscription => true
  | _ => false

def isClassBody : Kind → Bool
  | classBody => true
  | _ => false

def isDecorator : Kind → Bool
  | decorator => true
  | _ => false

def isClass : Kind → Bool
  | classNode _ => true
  | _ => false

def isVariableDeclaration : Kind → Bool
  | variableDeclaration _ => true
  | _ => false

def isVariableDeclarator : Kind → Bool
  | variableDeclarator => true
  | _ => false

def isStringLiteral : Kind → Bool
  | stringLiteral _ => true
  | _ => false

/-- A JSX element or fragment. -/
def isTemplate : Kind → Bool
  | jsxElement | jsxFragment => true
  | _ => false

/-- The parts of a class other than its base. -/
def isClassPart : Kind → Bool
  | decorator | bindingIdentifier _ | tsTypeParameterDeclaration | tsTypeParameterInstantiation
  | tsClassImplements | classBody => true
  | _ => false

end Kind

namespace Node

/-- The identifier that names a function, class or type. -/
def id? (n : Node) : Option Node :=
  n.child? Kind.isBindingIdentifier

/-- The decoded text of an identifier or string. -/
def text? (n : Node) : Option String :=
  match n.kind with
  | .identifierName s | .identifierReference s | .bindingIdentifier s | .labelIdentifier s
  | .privateIdentifier s | .jsxIdentifier s | .stringLiteral s => some s
  | _ => none

/-- The body of a function or arrow function. -/
def functionBody? (n : Node) : Option Node :=
  n.child? Kind.isFunctionBody

/-- The expression that a class extends. -/
def superClass? (n : Node) : Option Node :=
  n.child? (!·.isClassPart)

/-- The members of a class. -/
def classMembers (n : Node) : List Node :=
  ((n.child? Kind.isClassBody).map Node.children).getD []

/-- What a variable declarator binds. -/
def binding? (n : Node) : Option Node :=
  n.children.head?

/-- The initialiser of a variable declarator. -/
def initializer? (n : Node) : Option Node :=
  (n.children.drop 1).find? (!·.kind.isTypeAscription)

/-- The key of a class member. -/
def memberKey? (n : Node) : Option Node :=
  n.child? (!·.isDecorator)

/-- The value of a class member. -/
def memberValue? (n : Node) : Option Node :=
  ((n.children.filter (!·.kind.isDecorator)).drop 1).find? (!·.kind.isTypeAscription)

end Node

end ComponentScan.Syntax
