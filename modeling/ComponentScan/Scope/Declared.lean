import ComponentScan.Scope.Basic

/-!
# Declarations

Which names the statements and types of a program declare, in the order of the text. Blocks confine
all declarations but those of `var`, which belong to the function around them. If a block between
the two declares the same name before, such as the parameter of a handler, the two are one.
-/

namespace ComponentScan.Scope

open Syntax

/-! ## Names -/

/-- The declaration of an identifier. -/
def bindingOf (meanings : List Meaning) (n : Node) : List Binding :=
  match n.kind with
  | .bindingIdentifier name => [{ name, span := n.span, meanings }]
  | _ => []

/-- The declaration by the identifier that names a node. -/
def named (meanings : List Meaning) (n : Node) : List Binding :=
  (n.id?.map (bindingOf meanings)).getD []

mutual

/-- The variables that a pattern binds. -/
def patternBindings : Node → List Binding
  | ⟨.bindingIdentifier name, span, _⟩ => [{ name, span, meanings := [.variableName] }]
  | ⟨.assignmentPattern, _, [left, _]⟩ => patternBindings left
  | ⟨.bindingProperty, _, [_, value]⟩ => patternBindings value
  | ⟨.bindingRestElement, _, items⟩ => patternsBindings items
  | ⟨.objectPattern, _, items⟩ => patternsBindings items
  | ⟨.arrayPattern, _, items⟩ => patternsBindings items
  | _ => []

/-- The variables that some patterns bind. -/
def patternsBindings : List Node → List Binding
  | [] => []
  | n :: rest => patternBindings n ++ patternsBindings rest

end

/-- The variable that a parameter or declarator binds. -/
def parameterBindings (n : Node) : List Binding :=
  ((n.child? (!·.isDecorator)).map patternBindings).getD []

/-- The type parameters of a node. -/
def typeParameterBindings (n : Node) : List Binding :=
  match n.child? Kind.isTypeParameters with
  | some params => params.children.flatMap (named [.typeParameterName])
  | none => []

/-- The parameters of a function, signature or function type. -/
def parametersBindings (n : Node) : List Binding :=
  match n.child? Kind.isFormalParameters with
  | some params => params.children.flatMap parameterBindings
  | none => []

/-! ## Namespaces -/

mutual

/-- Whether a statement of a namespace is more than types. -/
def hasValue : Node → Bool
  | ⟨.tsInterfaceDeclaration, _, _⟩ | ⟨.tsTypeAliasDeclaration, _, _⟩
  | ⟨.importDeclaration _, _, _⟩ | ⟨.tsImportEqualsDeclaration _, _, _⟩ => false
  | ⟨.tsModuleDeclaration, _, [_, body]⟩ => hasValue body
  | ⟨.tsModuleBlock, _, body⟩ => haveValue body
  | ⟨.exportNamedDeclaration _, _, children⟩ => haveValue children
  | _ => true

/-- Whether some statement of a namespace is more than types. -/
def haveValue : List Node → Bool
  | [] => false
  | n :: rest => hasValue n || haveValue rest

end

/-- What the declaration of a namespace makes of its name. -/
def namespaceMeanings (n : Node) : List Meaning :=
  if hasValue n then [.namespaceName, .namespaceValue] else [.namespaceName]

/-! ## Statements -/

/-- What remains of the declarations of a block outside of it. -/
def leaveBlock (bindings : List Binding) : List Binding :=
  (bindings.filter (·.hoists)).map fun b =>
    match bindings.find? (·.name == b.name) with
    | some first => { b with span := first.span, meanings := first.meanings ++ b.meanings }
    | none => b

/-- The variables of a declaration. -/
def variableBindings (binder : Binder) (declarators : List Node) : List Binding :=
  (declarators.flatMap parameterBindings).map fun b => { b with hoists := binder == .var }

/-- The import that a specifier declares; its name in this file comes last. -/
def importBinding (typeOnly : Bool) (n : Node) : List Binding :=
  let meaning : Meaning := if typeOnly then .typeImportName else .importName
  match n.kind with
  | .importSpecifier ownType =>
    named [if typeOnly || ownType then .typeImportName else .importName] n
  | .importDefaultSpecifier | .importNamespaceSpecifier => named [meaning] n
  | _ => []

mutual

/-- What a statement declares in the scope that it stands in. -/
def declared : Node → List Binding
  | ⟨.variableDeclaration binder, _, declarators⟩ => variableBindings binder declarators
  | ⟨.function true, span, children⟩ => named [.functionName] ⟨.function true, span, children⟩
  | ⟨.classNode true, span, children⟩ => named [.className] ⟨.classNode true, span, children⟩
  | ⟨.tsEnumDeclaration, span, children⟩ => named [.enumName] ⟨.tsEnumDeclaration, span, children⟩
  | ⟨.tsInterfaceDeclaration, span, children⟩ =>
    named [.interfaceName] ⟨.tsInterfaceDeclaration, span, children⟩
  | ⟨.tsTypeAliasDeclaration, span, children⟩ =>
    named [.aliasName] ⟨.tsTypeAliasDeclaration, span, children⟩
  | ⟨.tsModuleDeclaration, span, children⟩ =>
    let n : Node := ⟨.tsModuleDeclaration, span, children⟩
    named (namespaceMeanings n) n
  | ⟨.tsImportEqualsDeclaration typeOnly, span, children⟩ =>
    named [if typeOnly then .typeImportName else .importName]
      ⟨.tsImportEqualsDeclaration typeOnly, span, children⟩
  | ⟨.importDeclaration typeOnly, _, children⟩ => children.flatMap (importBinding typeOnly)
  | ⟨.exportNamedDeclaration _, _, children⟩ | ⟨.exportDefaultDeclaration, _, children⟩
  | ⟨.ifStatement, _, children⟩ | ⟨.labeledStatement, _, children⟩
  | ⟨.whileStatement, _, children⟩ | ⟨.doWhileStatement, _, children⟩
  | ⟨.tryStatement, _, children⟩ | ⟨.switchCase, _, children⟩ => declaredAll children
  | ⟨.blockStatement, _, children⟩ | ⟨.forStatement, _, children⟩
  | ⟨.forInStatement, _, children⟩ | ⟨.forOfStatement, _, children⟩
  | ⟨.switchStatement, _, children⟩ | ⟨.withStatement, _, children⟩ =>
    leaveBlock (declaredAll children)
  | ⟨.catchClause, _, [param, ⟨.blockStatement, _, body⟩]⟩ =>
    leaveBlock (parameterBindings param ++ declaredAll body)
  | ⟨.catchClause, _, children⟩ => leaveBlock (declaredAll children)
  | _ => []

/-- What some statements declare in the scope that they stand in. -/
def declaredAll : List Node → List Binding
  | [] => []
  | n :: rest => declared n ++ declaredAll rest

end

/-- The symbols of a block with the given statements. -/
def blockSymbols (statements : List Node) : Symbols :=
  .ofBindings ((declaredAll statements).filter (!·.hoists))

/-! ## Types -/

mutual

/-- The inferred types of a type that belong to the condition around it. -/
def inferred : Node → List Binding
  | ⟨.tsInferType, _, [⟨kind, span, children⟩]⟩ =>
    named [.typeParameterName] ⟨kind, span, children⟩ ++ inferredAll children
  | ⟨.tsConditionalType, _, [check, _, _, whenFalse]⟩ => inferred check ++ inferred whenFalse
  | ⟨_, _, children⟩ => inferredAll children

/-- The inferred types of some types that belong to the condition around them. -/
def inferredAll : List Node → List Binding
  | [] => []
  | n :: rest => inferred n ++ inferredAll rest

end

/-- The member of an enumeration that a node declares. -/
def enumMemberBinding (n : Node) : List Binding :=
  match n.children.head? with
  | some id =>
    match id.text? with
    | some name => [{ name, span := id.span, meanings := [.memberName] }]
    | none => []
  | none => []

end ComponentScan.Scope
