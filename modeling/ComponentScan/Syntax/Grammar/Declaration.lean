import ComponentScan.Syntax.Grammar.Operator

/-!
# Declarations

Variables, functions, classes, types, enumerations and namespaces. The words before a declaration,
such as `declare`, are part of it, so each rule is told where it starts.
-/

namespace ComponentScan.Syntax

open Parse

/-! ## Variables -/

/-- Whether the variables of a declaration may lack initialisers. -/
def needsInitializer (binder : Binder) (target : Node) : Bool :=
  binder == .const || binder == .using || !target.kind.isBindingIdentifier

/-- A variable with its type and initialiser. In the head of a loop it may lack the latter. -/
def variableDeclarator (g : Rules) (binder : Binder) (inLoop : Bool) : Parse Node := do
  let ctx ← read
  let start ← here
  let target ← g .binding
  if ctx.dialect.typescript && target.kind.isBindingIdentifier && !(← onNewLine) then
    let _ ← eat "!"
  let type ← typeAscription? g
  let value ← if ← eat "=" then some <$> g (.assignment true) else pure none
  faultIf (value.isNone && !inLoop && !ctx.ambient && needsInitializer binder target)
  node .variableDeclarator start (target :: type.toList ++ value.toList)

/-- The word that introduces variables. -/
def binder? (t : Token) : Option Binder :=
  if t.isWord "var" then some .var
  else if t.isWord "let" then some .letWord
  else if t.isWord "const" then some .const
  else if t.isWord "using" then some .using
  else none

/-- Variables with commas between them, without what ends their statement. -/
def variableDeclaration (g : Rules) (start : Nat) (inLoop : Bool) : Parse Node := do
  match binder? (← token) with
  | none => reject
  | some binder =>
    advance
    let bound ← commaList (variableDeclarator g binder inLoop)
    node (.variableDeclaration binder) start bound

/-- Whether a word stands here that is only a modifier if a name follows it on its line. -/
def atUsing : Parse Bool := do
  if ← atWord "using" then
    nextIs do return (← atIdentifier) && !(← atWord "of") && !(← onNewLine)
  else return false

/-- Whether resources that are released asynchronously are declared here. -/
def atAwaitUsing : Parse Bool := do
  if ← atWord "await" then
    nextIs do return !(← onNewLine) && (← atUsing)
  else return false

/-- A statement that declares variables. -/
def variableStatement (g : Rules) (start : Nat) : Parse Node := do
  let n ← variableDeclaration g start false
  endStatement
  closeNode n

/-! ## Types -/

/-- The base of an interface. -/
def interfaceHeritage (g : Rules) : Parse Node := do
  let start ← here
  let e ← g .leftHandSide
  let (base, args) := splitInstantiation e
  let args ← if args.isNone && (← atSymbol "<") then some <$> typeArguments g else pure args
  node .tsInterfaceHeritage start (base :: args.toList)

def interfaceDeclaration (g : Rules) (start : Nat) : Parse Node := do
  expectWord "interface"
  let id ← bindingIdentifier
  let typeParams ← typeParameters? g
  let bases ← if ← eatWord "extends" then commaList (interfaceHeritage g) else pure []
  let bodyStart ← here
  let members ← typeMembers g
  let body ← node .tsInterfaceBody bodyStart members
  node .tsInterfaceDeclaration start (id :: typeParams.toList ++ bases ++ [body])

def typeAlias (g : Rules) (start : Nat) : Parse Node := do
  expectWord "type"
  let id ← bindingIdentifier
  let typeParams ← typeParameters? g
  expect "="
  let intrinsic ← if ← atWord "intrinsic" then not <$> nextIs (atSymbol ".") else pure false
  let type ← if intrinsic then leaf .tsIntrinsicKeyword else g .type
  endStatement
  node .tsTypeAliasDeclaration start (id :: typeParams.toList ++ [type])

/-! ## Enumerations and namespaces -/

/-- The name of a member of an enumeration: no number, and in brackets only a string. -/
def enumMemberName (g : Rules) : Parse Node := do
  let (key, computed) ← propertyName g
  match key.kind with
  | .numericLiteral | .bigIntLiteral | .privateIdentifier _ => fault
  | .stringLiteral _ => pure ()
  | .templateLiteral => faultIf (key.children.length != 1)
  | _ => faultIf computed
  return key

def enumMember (g : Rules) : Parse Node := do
  let start ← here
  let id ← enumMemberName g
  let value ← if ← eat "=" then some <$> g (.assignment true) else pure none
  node .tsEnumMember start (id :: value.toList)

def enumDeclaration (g : Rules) (start : Nat) : Parse Node := do
  let _ ← eatWord "const"
  expectWord "enum"
  let id ← bindingIdentifier
  let bodyStart ← here
  expect "\x7b"
  let members ← separated "," "\x7d" (enumMember g)
  expect "\x7d"
  let body ← node .tsEnumBody bodyStart members
  node .tsEnumDeclaration start [id, body]

/-- The body of a namespace. -/
def moduleBlock (g : Rules) : Parse Node := do
  let start ← here
  expect "\x7b"
  let body ← within ({ · with allowReturn := false, topLevel := false }) (statements g)
  expect "\x7d"
  node .tsModuleBlock start (markDirectives body)

/-- Puts a namespace around each of its nested names; all but the first start at their name. -/
def nestNamespace (stop : Nat) (body : Node) : List Node → Node
  | [] => body
  | id :: rest => ⟨.tsModuleDeclaration, ⟨id.start, stop⟩, [id, nestNamespace stop body rest]⟩

/-- A namespace, whose name may be qualified, or the declaration of a module named by a string. -/
def moduleDeclaration (g : Rules) (start : Nat) : Parse Node := do
  advance
  if ← atString then
    let id ← stringLiteral
    if ← atSymbol "\x7b" then node .tsModuleDeclaration start [id, ← moduleBlock g]
    else
      endStatement
      node .tsModuleDeclaration start [id]
  else
    let first ← bindingIdentifier
    let others ← many do
      if ← eat "." then some <$> bindingIdentifier else return none
    let body ← moduleBlock g
    node .tsModuleDeclaration start [first, nestNamespace body.stop body others]

/-- What a file adds to the global scope. -/
def globalDeclaration (g : Rules) (start : Nat) : Parse Node := do
  expectWord "global"
  node .tsGlobalDeclaration start [← moduleBlock g]

/-! ## Names for imported things -/

/-- A module that is required by its name. -/
def externalModule : Parse Node := do
  let start ← here
  expectWord "require"
  expect "("
  let source ← stringLiteral
  expect ")"
  node .tsExternalModuleReference start [source]

/-- The name for a module or a member of a namespace, after the word `import` and the name. -/
def importEqualsRest (start : Nat) (typeOnly : Bool) (id : Node) : Parse Node := do
  expect "="
  let external ← if ← atWord "require" then nextIs (atSymbol "(") else pure false
  let reference ← if external then externalModule else typeName
  endStatement
  node (.tsImportEqualsDeclaration typeOnly) start [id, reference]

/-- A name for a module or a member of a namespace. -/
def importEquals (start : Nat) : Parse Node := do
  expectWord "import"
  let typeOnly ← if ← atWord "type" then nextIs atIdentifier else pure false
  if typeOnly then advance
  importEqualsRest start typeOnly (← bindingIdentifier)

/-! ## Declarations with modifiers -/

/-- The modifiers that may stand before a declaration, meaningful or not. -/
def declarationModifiers : List String :=
  ["abstract", "accessor", "declare", "private", "protected", "public", "readonly", "static"]

/-- Whether the word here is one of some words, without escapes. -/
def atWordOf (words : List String) : Parse Bool := do
  match (← token).kind with
  | .word name => return words.contains name && !(← token).escaped
  | _ => return false

/-- Whether a declaration starts here, perhaps with modifiers, and no expression. -/
def atDeclaration : Parse Bool :=
  lookahead do
    let _ ← many do
      if ← atWordOf ("async" :: declarationModifiers) then
        advance
        if ← onNewLine then reject
        return some ()
      else return none
    if ← atWordOf ["var", "let", "const", "function", "class", "enum"] then return true
    if ← atWordOf ["interface", "type"] then
      nextIs do return (← atIdentifier) && !(← onNewLine)
    else if ← atWordOf ["module", "namespace"] then
      nextIs do return ((← atIdentifier) || (← atString)) && !(← onNewLine)
    else if ← atWord "global" then
      nextIs do return (← atSymbol "\x7b") || (← atIdentifier) || (← atWord "export")
    else if ← atWord "import" then
      nextIs do return (← atString) || (← atIdentifier) || (← atSymbolOf ["*", "\x7b"])
    else return false

/-- A function as a statement; in place of a single statement it is a plain function. -/
def functionStatement (g : Rules) (start : Nat) (place : StatementPlace) : Parse Node := do
  let (f, isAsync, isGenerator) ← functionDeclaration g start true
  faultIf (place != .list && (isAsync || isGenerator))
  return f

/-- A declaration of what only a language with types has, after its modifiers. -/
def typeDeclaration (g : Rules) (start : Nat) : Parse Node := do
  if !(← read).dialect.typescript then reject
  match (← token).kind with
  | .word "const" | .word "enum" => enumDeclaration g start
  | .word "interface" => interfaceDeclaration g start
  | .word "type" => typeAlias g start
  | .word "module" | .word "namespace" => moduleDeclaration g start
  | .word "global" => globalDeclaration g start
  | .word "import" => importEquals start
  | _ => reject

/-- A declaration after its modifiers. -/
def bareDeclaration (g : Rules) (start : Nat) (place : StatementPlace) : Parse Node := do
  match (← token).kind with
  | .word "var" | .word "let" => variableStatement g start
  | .word "const" =>
    if ← nextIs (atWord "enum") then typeDeclaration g start else variableStatement g start
  | .word "function" | .word "async" => functionStatement g start place
  | .word "class" =>
    faultIf (place != .list)
    classRest g start true true []
  | _ => typeDeclaration g start

/-- Whether a node is a function with a body. -/
def isImplemented (n : Node) : Bool :=
  match n.kind with
  | .function _ => n.functionBody?.isSome
  | _ => false

/-- A declaration with its modifiers. Of these only `declare`, which keeps a function from having a
body, and, before a class, `abstract` have a meaning. -/
def declaration (g : Rules) (start : Nat) (place : StatementPlace) : Parse Node := do
  let modifiers ← many do
    match (← token).kind with
    | .word name =>
      if declarationModifiers.contains name then
        advance
        return some name
      else return none
    | _ => return none
  faultIf (modifiers.any fun name => name != "declare" && name != "abstract")
  let declares := modifiers.contains "declare"
  let isClass ← atWord "class"
  faultIf (modifiers.contains "abstract" && !isClass)
  let n ← within (fun ctx => { ctx with ambient := ctx.ambient || declares })
    (bareDeclaration g start place)
  faultIf (declares && isImplemented n)
  return n

/-! ## Decorated classes -/

/-- A class declaration that starts with decorators or modifiers. -/
def decoratedClass (g : Rules) (start : Nat) (needsName : Bool) (decos : List Node) :
    Parse Node := do
  if (← read).dialect.typescript then
    let _ ← many do
      if ← atWordOf ["abstract", "declare"] then
        advance
        return some ()
      else return none
  classRest g start true needsName decos

end ComponentScan.Syntax
