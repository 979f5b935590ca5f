import ComponentScan.Syntax.Grammar.Jsx

/-!
# Functions and classes
-/

namespace ComponentScan.Syntax

open Parse

/-! ## Bodies -/

/-- Statements up to a closing brace or the end of the text, which is not taken. -/
def statements (g : Rules) : Parse (List Node) :=
  many do
    if (← atSymbol "\x7d") || (← atEnd) then return none
    some <$> g (.statement .list)

/-- Turns the leading statements that are only a string into directives. -/
def markDirectives : List Node → List Node
  | [] => []
  | n :: rest =>
    match n.kind, n.children with
    | .expressionStatement, [e] =>
      if e.kind.isStringLiteral then
        { n with kind := .directive } :: markDirectives rest
      else n :: rest
    | _, _ => n :: rest

/-- What changes in the body of a function. -/
def functionContext (isAsync isGenerator : Bool) (ctx : Context) : Context :=
  { ctx with
    allowIn := true
    allowAwait := isAsync
    allowYield := isGenerator
    allowReturn := true
    topLevel := false
    inDecorator := false
    allowConditionalTypes := true }

/-- The body of a function in braces. -/
def functionBody (g : Rules) (isAsync isGenerator : Bool) : Parse Node := do
  let start ← here
  expect "\x7b"
  let body ← within (functionContext isAsync isGenerator) (statements g)
  expect "\x7d"
  node .functionBody start (markDirectives body)

/-- Type parameters, parameters and return type of a function. -/
def functionHead (g : Rules) (isAsync isGenerator : Bool) : Parse (List Node) := do
  let typeParams ← typeParameters? g
  let params ← within ({ · with allowAwait := isAsync, allowYield := isGenerator, topLevel := false })
    (formalParameters g)
  let result ← returnType? g
  return typeParams.toList ++ params ++ result.toList

/-- The body of a function that may only be declared: then the declaration ends here. -/
def functionBody? (g : Rules) (isAsync isGenerator : Bool) : Parse (Option Node) := do
  if ← atSymbol "\x7b" then some <$> functionBody g isAsync isGenerator
  else
    if !(← read).dialect.typescript then reject
    endStatement
    return none

/-- A function from its parameters on, such as a method has. -/
def methodFunction (g : Rules) (isAsync isGenerator : Bool) : Parse Node := do
  let start ← here
  let head ← functionHead g isAsync isGenerator
  let body ← functionBody? g isAsync isGenerator
  node (.function false) start (head ++ body.toList)

/-- The number of parameters of a function. -/
def parameterCount (f : Node) : Nat :=
  ((f.child? Kind.isFormalParameters).map fun params => params.children.length).getD 0

/-- A getter takes no parameters. -/
def checkGetter (f : Node) : Parse Unit :=
  faultIf (parameterCount f != 0)

/-- A setter takes one parameter, which is no rest parameter. -/
def checkSetter (f : Node) : Parse Unit := do
  let rests := ((f.child? Kind.isFormalParameters).map Node.children).getD []
  faultIf (parameterCount f != 1)
  faultIf <| rests.any fun p =>
    match p.kind with
    | .formalParameterRest => true
    | _ => false

/-! ## Functions -/

/-- A function declaration after its modifiers; only a default export needs no name. -/
def functionDeclaration (g : Rules) (start : Nat) (needsName : Bool) : Parse (Node × Bool × Bool) := do
  let isAsync ← eatWord "async"
  expectWord "function"
  let isGenerator ← eat "*"
  let id ← if needsName || (← atIdentifier) then some <$> bindingIdentifier else pure none
  let head ← functionHead g isAsync isGenerator
  let body ← functionBody? g isAsync isGenerator
  let f ← node (.function true) start (id.toList ++ head ++ body.toList)
  return (f, isAsync, isGenerator)

/-- A function expression, whose name belongs to itself. -/
def functionExpression (g : Rules) : Parse Node := do
  let start ← here
  let isAsync ← eatWord "async"
  expectWord "function"
  let isGenerator ← eat "*"
  let id ←
    if ← atIdentifier then
      some <$> within ({ · with allowAwait := isAsync, allowYield := isGenerator }) bindingIdentifier
    else pure none
  let head ← functionHead g isAsync isGenerator
  let body ← functionBody g isAsync isGenerator
  node (.function false) start (id.toList ++ head ++ [body])

/-- Whether an asynchronous function starts here. -/
def atAsyncFunction : Parse Bool := do
  if ← atWord "async" then
    nextIs do return (← atWord "function") && !(← onNewLine)
  else return false

/-! ## Members of classes -/

/-- The modifiers of a member. -/
structure MemberModifiers where
  isStatic : Bool := false
  isAsync : Bool := false
  isAccessor : Bool := false
  isAbstract : Bool := false
  isDeclare : Bool := false

/-- The modifiers that only types give a meaning. -/
def typeModifiers : List String :=
  ["public", "private", "protected", "readonly", "override", "abstract", "declare", "export"]

/-- Takes the modifiers of a member. -/
def memberModifiers : Parse MemberModifiers :=
  loop {} fun m => do
    if ← atWord "static" then
      if ← nextIs canFollowModifier then
        if ← nextIs (atSymbol "\x7b") then return none
        advance
        faultIf m.isStatic
        return some { m with isStatic := true }
      else return none
    if ← atModifier ["async"] then
      advance
      faultIf m.isAsync
      return some { m with isAsync := true }
    if ← atModifier ["accessor"] then
      advance
      return some { m with isAccessor := true }
    if ← atModifier typeModifiers then
      faultIf !(← read).dialect.typescript
      let isAbstract := m.isAbstract || (← atWord "abstract")
      let isDeclare := m.isDeclare || (← atWord "declare")
      faultIf (← atWord "export")
      advance
      return some { m with isAbstract, isDeclare }
    return none

/-- Whether a key names the constructor. -/
def isConstructorKey (key : Node) : Bool :=
  match key.kind with
  | .identifierName "constructor" | .stringLiteral "constructor" => true
  | _ => false

/-- Whether a key is the private name that no member may have. -/
def isPrivateConstructor (key : Node) : Bool :=
  match key.kind with
  | .privateIdentifier "constructor" => true
  | _ => false

/-- A getter or setter of a class. -/
def accessorMember (g : Rules) (start : Nat) (decos : List Node) (m : MemberModifiers) :
    Parse Node := do
  let getter ← atWord "get"
  advance
  let (key, computed) ← propertyName g
  faultIf (isPrivateConstructor key)
  faultIf (isConstructorKey key && !computed && !m.isStatic)
  let f ← methodFunction g false false
  if getter then checkGetter f else checkSetter f
  node (.methodDefinition (if getter then .getter else .setter) m.isStatic) start
    (decos ++ [key, f])

/-- A method of a class after its key. -/
def methodMember (g : Rules) (start : Nat) (decos : List Node) (m : MemberModifiers)
    (isGenerator : Bool) (key : Node) (computed : Bool) : Parse Node := do
  let constructs := isConstructorKey key && !computed && !m.isStatic
  faultIf (constructs && (m.isAsync || isGenerator))
  let f ← methodFunction g m.isAsync isGenerator
  node (.methodDefinition (if constructs then .constructor else .method) m.isStatic) start
    (decos ++ [key, f])

/-- A property of a class after its key. -/
def propertyMember (g : Rules) (start : Nat) (decos : List Node) (m : MemberModifiers)
    (key : Node) (computed : Bool) : Parse Node := do
  faultIf (isConstructorKey key && !computed)
  let type ← typeAscription? g
  let value ←
    if ← eat "=" then
      some <$> within
        ({ · with
            allowIn := true, allowAwait := false, allowYield := false, inDecorator := false
            topLevel := false })
        (g (.assignment true))
    else pure none
  endStatement
  node (if m.isAccessor then .accessorProperty else .propertyDefinition m.isStatic) start
    (decos ++ key :: (type.toList ++ value.toList))

/-- A block that runs when its class is made. -/
def staticBlock (g : Rules) (start : Nat) : Parse Node := do
  expectWord "static"
  expect "\x7b"
  let body ← within (fun ctx => { functionContext true false ctx with allowReturn := false })
    (statements g)
  expect "\x7d"
  node .staticBlock start body

/-- A member of a class. -/
def classMember (g : Rules) : Parse Node := do
  let start ← here
  let decos ← decorators g
  if (← atWord "static") && (← nextIs (atSymbol "\x7b")) then return ← staticBlock g start
  let m ← memberModifiers
  if (← read).dialect.typescript && (← atIndexSignature) then
    let n ← indexSignature g start
    endMember
    return ← closeNode n
  if !m.isAsync && ((← atAccessorWord "get") || (← atAccessorWord "set")) then
    if !(← nextIs (atSymbol "*")) then return ← accessorMember g start decos m
  let isGenerator ← eat "*"
  let (key, computed) ← propertyName g
  faultIf (isPrivateConstructor key)
  let ts := (← read).dialect.typescript
  let _ ← if ts then eat "?" else pure false
  if isGenerator || m.isAsync || (← atSymbol "(") || (← atSymbol "<") then
    methodMember g start decos m isGenerator key computed
  else
    let _ ← if ts then eat "!" else pure false
    propertyMember g start decos m key computed

/-- The members of a class between braces. -/
def classBody (g : Rules) : Parse Node := do
  let start ← here
  expect "\x7b"
  let members ← many do
    let _ ← many do
      if ← eat ";" then return some () else return none
    if ← atSymbol "\x7d" then return none
    some <$> classMember g
  expect "\x7d"
  node .classBody start members

/-! ## Classes -/

/-- Takes the arguments off an expression that ends with type arguments. -/
def splitInstantiation (e : Node) : Node × Option Node :=
  match e.kind, e.children with
  | .tsInstantiationExpression, [inner, args] => (inner, some args)
  | _, _ => (e, none)

/-- What a class extends, with its type arguments. -/
def extendsClause (g : Rules) : Parse (List Node) := do
  let e ← g .leftHandSide
  let (base, args) := splitInstantiation e
  let mayHaveArgs := args.isNone && (← read).dialect.typescript && (← atSymbol "<")
  let args ← if mayHaveArgs then some <$> typeArguments g else pure args
  faultIf (← atSymbol ",")
  return base :: args.toList

/-- A type that a class implements. -/
def implementsItem (g : Rules) : Parse Node := do
  let start ← here
  let name ← typeName
  let args ← if ← atSymbol "<" then some <$> typeArguments g else pure none
  node .tsClassImplements start (name :: args.toList)

/-- Items with commas between them, at least one. -/
def commaList (item : Parse Node) : Parse (List Node) := do
  let first ← item
  let others ← many do
    if ← eat "," then some <$> item else return none
  return first :: others

/-- A class from its keyword on. -/
def classRest (g : Rules) (start : Nat) (declares needsName : Bool) (decos : List Node) :
    Parse Node := do
  expectWord "class"
  let ts := (← read).dialect.typescript
  let named := (← atIdentifier) && !((← atWord "implements") && ts)
  let id ← if named then some <$> bindingIdentifier else pure none
  faultIf (needsName && !named)
  let typeParams ← typeParameters? g
  let base ← if ← eatWord "extends" then extendsClause g else pure []
  let interfaces ←
    if ts && (← eatWord "implements") then commaList (implementsItem g) else pure []
  let body ← classBody g
  node (.classNode declares) start
    (decos ++ id.toList ++ typeParams.toList ++ base ++ interfaces ++ [body])

/-- A class expression with its decorators. -/
def classExpression (g : Rules) : Parse Node := do
  let start ← here
  let decos ← decorators g
  classRest g start false false decos

end ComponentScan.Syntax
