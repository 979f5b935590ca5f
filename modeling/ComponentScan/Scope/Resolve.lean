import ComponentScan.Scope.Declared

/-!
# Resolution of names

Each identifier of a program is resolved in the scopes around it. What a function declares in its
body is not in scope in its parameters and its return type, and the name of a function expression is
in scope in the function, unless a parameter has the same name.
-/

namespace ComponentScan.Scope

open Syntax

/-! ## Scopes of nodes -/

/-- The name of an expression that is in scope in it. -/
def ownName (n : Node) : List Binding :=
  match n.kind with
  | .function false => named [.functionName] n
  | .classNode false => named [.className] n
  | _ => []

/-- What the head of a function declares. -/
def headBindings (f : Node) : List Binding :=
  let params := typeParameterBindings f ++ parametersBindings f
  (ownName f).filter (fun b => !params.any (·.name == b.name)) ++ params

/-- The scope in the head of a function. -/
def headSymbols (f : Node) : Symbols :=
  .ofBindings (headBindings f)

/-- The scope in the body of a function. -/
def functionSymbols (f body : Node) : Symbols :=
  .ofBindings (headBindings f ++ declaredAll body.children)

/-- The scopes in a child of a function. -/
def inFunction (scopes : Scopes) (f child : Node) : Scopes :=
  if child.kind.isFunctionBody then functionSymbols f child :: scopes
  else if child.kind.isBindingIdentifier then .ofBindings (ownName f) :: scopes
  else headSymbols f :: scopes

/-- The scopes in a child of a class. -/
def inClass (scopes : Scopes) (c child : Node) : Scopes :=
  if child.kind.isDecorator then scopes
  else .ofBindings (ownName c ++ typeParameterBindings c) :: scopes

/-- The scope in the body of a namespace, which may be another namespace. -/
def namespaceSymbols (body : Node) : Symbols :=
  match body.kind with
  | .tsModuleBlock => .ofBindings (declaredAll body.children)
  | _ => .ofBindings (declared body)

/-- The scope of the type parameters and parameters of a type or signature. -/
def signatureSymbols (n : Node) : Symbols :=
  .ofBindings (typeParameterBindings n ++ parametersBindings n)

/-- The scopes in a child of a node, which is at the given position. -/
def childScopes (scopes : Scopes) (n : Node) (i : Nat) (child : Node) : Scopes :=
  match n.kind with
  | .program => .ofBindings (declaredAll n.children) :: scopes
  | .function _ | .arrowFunctionExpression => inFunction scopes n child
  | .classNode _ => inClass scopes n child
  | .blockStatement | .forStatement | .forInStatement | .forOfStatement =>
    blockSymbols n.children :: scopes
  | .switchStatement => if i = 0 then scopes else blockSymbols n.children :: scopes
  | .catchClause =>
    .ofBindings ((n.children.take 1).flatMap parameterBindings) :: scopes
  | .staticBlock => .ofBindings (declaredAll n.children) :: scopes
  | .tsModuleDeclaration => if i = 0 then scopes else namespaceSymbols child :: scopes
  | .tsGlobalDeclaration => namespaceSymbols child :: scopes
  | .tsEnumDeclaration =>
    if i = 0 then scopes else .ofBindings (child.children.flatMap enumMemberBinding) :: scopes
  | .tsTypeAliasDeclaration | .tsInterfaceDeclaration | .tsMethodSignature =>
    if i = 0 then scopes else signatureSymbols n :: scopes
  | .tsCallSignatureDeclaration | .tsConstructSignatureDeclaration | .tsFunctionType
  | .tsConstructorType => signatureSymbols n :: scopes
  | .tsConditionalType =>
    if i = 1 ∨ i = 2 then
      .ofBindings (((n.children.drop 1).take 2).flatMap inferred) :: scopes
    else scopes
  | .tsMappedType => .ofBindings ((n.children.take 1).flatMap (bindingOf [.typeParameterName])) :: scopes
  | _ => scopes

/-! ## Uses -/

/-- What a child of a node is used for, if the node is used for `use`. -/
def childUse (use : Use) (n : Node) (i : Nat) (child : Node) : Use :=
  match n.kind with
  | .tsTypeReference | .tsClassImplements => .type
  | .tsInterfaceHeritage => .type
  | .tsTypeQuery => .query
  | .tsQualifiedName => if use == .query then .query else .qualifier
  | .tsPropertySignature | .tsMethodSignature => if i = 0 then .query else .value
  | .tsImportEqualsDeclaration _ | .exportDefaultDeclaration | .tsExportAssignment =>
    match child.kind with
    | .identifierReference _ => .either
    | _ => .value
  | .exportNamedDeclaration typeOnly => if typeOnly then .type else .either
  | .exportSpecifier typeOnly => if typeOnly then .type else use
  | .staticMemberExpression | .computedMemberExpression | .privateFieldExpression =>
    if i = 0 then use else .value
  | _ => .value

/-! ## Resolution -/

mutual

/-- The symbols of the identifiers in a node, each with the start of the identifier. -/
def resolve (scopes : Scopes) (use : Use) : Node → List (Nat × Symbol)
  | ⟨.identifierReference name, span, _⟩ =>
    ((scopes.lookup? use name).map fun s => (span.start, s)).toList
  | ⟨.bindingIdentifier name, span, _⟩ =>
    [(span.start, (scopes.bound? name).getD ⟨name, span, []⟩)]
  | ⟨kind, span, children⟩ =>
    let n : Node := ⟨kind, span, children⟩
    resolveAll (childScopes scopes n) (childUse use n) 0 children

/-- The symbols of the identifiers in some nodes, from a position on. -/
def resolveAll (scopes : Nat → Node → Scopes) (use : Nat → Node → Use) (i : Nat) :
    List Node → List (Nat × Symbol)
  | [] => []
  | n :: rest => resolve (scopes i n) (use i n) n ++ resolveAll scopes use (i + 1) rest

end

/-- The symbols of the identifiers in a program, each with the start of the identifier, in the order
of a traversal. -/
def resolveProgram (root : Node) : List (Nat × Symbol) :=
  resolve [] .value root

end ComponentScan.Scope
