import ComponentScan.Syntax.Grammar.Pattern

/-!
# Types
-/

namespace ComponentScan.Syntax

open Parse

/-! ## Parameters and arguments of types -/

/-- A type parameter with its constraint and default. -/
def typeParameter (g : Rules) : Parse Node := do
  let start ← here
  let _ ← many do
    if (← atWord "const") || (← atWord "in") then
      advance
      return some ()
    else if ← atWord "out" then
      if ← nextIs atName then
        advance
        return some ()
      else return none
    else return none
  let name ← bindingIdentifier
  let constraint ← if ← eatWord "extends" then some <$> g .type else pure none
  let default ← if ← eat "=" then some <$> g .type else pure none
  node .tsTypeParameter start (name :: constraint.toList ++ default.toList)

/-- Type parameters between angle brackets, if there are any; the list is not empty. -/
def typeParameters? (g : Rules) : Parse (Option Node) := do
  if (← read).dialect.typescript && (← atSymbol "<") then
    let start ← here
    advance
    let params ← within ({ · with allowConditionalTypes := true }) <|
      separated "," ">" (typeParameter g)
    expect ">"
    faultIf params.isEmpty
    return some (← node .tsTypeParameterDeclaration start params)
  else return none

/-- Reads a sign that starts with an opening angle bracket as that bracket alone. -/
def splitAngle : Parse Unit := do
  match (← token).kind with
  | .symbol "<<" | .symbol "<=" | .symbol "<<=" => reread (lexSign [['<']])
  | _ => return

/-- Type arguments between angle brackets; the list is not empty. -/
def typeArguments (g : Rules) : Parse Node := do
  let start ← here
  splitAngle
  expect "<"
  let args ← within ({ · with allowConditionalTypes := true }) <| separated "," ">" (g .type)
  expect ">"
  faultIf args.isEmpty
  node .tsTypeParameterInstantiation start args

/-- Type arguments of a type, on the line of its name. -/
def typeArgumentsOfType? (g : Rules) : Parse (Option Node) := do
  if ← onNewLine then return none
  match (← token).kind with
  | .symbol "<" | .symbol "<<" => some <$> typeArguments g
  | _ => return none

/-! ## Names -/

/-- Any word, as the name of a type. -/
def typeIdentifier : Parse Node := do
  match (← token).kind with
  | .word "this" => leaf .thisExpression
  | .word name => leaf (.identifierReference name)
  | _ => reject

/-- A name that may be qualified: words with full stops between them. -/
def typeName : Parse Node := do
  let start ← here
  let root ← typeIdentifier
  loop root fun left => do
    if ← eat "." then
      let right ← identifierName
      return some (← node .tsQualifiedName start [left, right])
    else return none

/-- A named type with its arguments. -/
def typeReference (g : Rules) : Parse Node := do
  let start ← here
  let name ← typeName
  let args ← typeArgumentsOfType? g
  node .tsTypeReference start (name :: args.toList)

/-! ## Function types -/

/-- The name that a type predicate speaks about, and the word `is` after it on its line. -/
def predicateSubject : Parse Node := do
  let name ← identifierName
  if (← atWord "is") && !(← onNewLine) then
    advance
    return name
  else reject

/-- The type that a predicate asserts. -/
def predicateType (g : Rules) : Parse Node := do
  let t ← g .type
  return ⟨.tsTypeAscription, t.span, [t]⟩

/-- A type or a predicate on a parameter. -/
def typeOrPredicate (g : Rules) : Parse Node := do
  let start ← here
  let subject ← if ← atName then attempt predicateSubject else pure none
  match subject with
  | some name => node .tsTypePredicate start [name, ← predicateType g]
  | none => g .type

/-- The return type after a colon, if there is one. -/
def returnType? (g : Rules) : Parse (Option Node) := do
  let start ← here
  if (← read).dialect.typescript && (← atSymbol ":") then
    advance
    let t ← within ({ · with allowConditionalTypes := true }) (typeOrPredicate g)
    return some (← node .tsTypeAscription start [t])
  else return none

/-- The parameters and the result of a function type. -/
def functionTypeParts (g : Rules) : Parse (List Node) := do
  let typeParams ← typeParameters? g
  let params ← formalParameters g
  let arrow ← here
  expect "=>"
  let result ← node .tsTypeAscription arrow [← typeOrPredicate g]
  return typeParams.toList ++ params ++ [result]

/-- A function type, or a constructor type behind `new`. -/
def functionType (g : Rules) : Parse Node := do
  let start ← here
  let _ ← eatWord "abstract"
  let constructs ← eatWord "new"
  let parts ← functionTypeParts g
  node (if constructs then .tsConstructorType else .tsFunctionType) start parts

/-- Moves past what may start a parameter. -/
def skipParameterStart (g : Rules) : Parse Bool := do
  let _ ← many do
    if ← atModifier parameterModifiers then
      advance
      return some ()
    else return none
  match (← token).kind with
  | .word name =>
    advance
    return name == "this" || !reservedWords.contains name
  | .symbol "\x7b" | .symbol "[" =>
    let _ ← g .binding
    return !(← get).faulty
  | _ => return false

/-- Whether the parenthesis here opens parameters and not a type. -/
def atParametersOfType (g : Rules) : Parse Bool :=
  lookahead do
    advance
    if (← atSymbol ")") || (← atSymbol "...") then return true
    if !(← skipParameterStart g) then return false
    match (← token).kind with
    | .symbol ":" | .symbol "," | .symbol "?" | .symbol "=" => return true
    | .symbol ")" =>
      advance
      atSymbol "=>"
    | _ => return false

/-- Whether a function or constructor type starts here. -/
def atFunctionType (g : Rules) : Parse Bool := do
  match (← token).kind with
  | .symbol "<" => return true
  | .symbol "(" => atParametersOfType g
  | .word "new" => return true
  | .word "abstract" => nextIs (atWord "new")
  | _ => return false

/-! ## Members of object types -/

/-- Ends a member with a comma or as a statement ends. -/
def endMember : Parse Unit := do
  if ← eat "," then return
  endStatement

/-- The word of an accessor, if a key follows it. -/
def atAccessorWord (word : String) : Parse Bool := do
  if ← atWord word then nextIs canFollowModifier else return false

/-- Whether an index signature starts here: a bracket, a name and a colon or comma. -/
def atIndexSignature : Parse Bool := do
  if ← atSymbol "[" then
    nextIs do
      if (← atSymbol "...") || (← atSymbol "]") then return true
      if ← atIdentifier then
        advance
        match (← token).kind with
        | .symbol ":" | .symbol "," => return true
        | .symbol "?" =>
          advance
          match (← token).kind with
          | .symbol ":" | .symbol "," | .symbol "]" => return true
          | _ => return false
        | _ => return false
      else return false
  else return false

/-- An index signature without what ends it. -/
def indexSignature (g : Rules) (start : Nat) : Parse Node := do
  expect "["
  let params ← separated "," "]" do
    let start ← here
    let _ ← identifierName
    match ← typeAscription? g with
    | some type => node .tsIndexSignatureName start [type]
    | none => reject
  expect "]"
  faultIf (params.length != 1)
  match ← typeAscription? g with
  | some type => node .tsIndexSignature start (params ++ [type])
  | none => reject

/-- Gives a node the end of the last token. -/
def closeNode (n : Node) : Parse Node :=
  node n.kind n.start n.children

/-- A call or construct signature. -/
def signature (g : Rules) (kind : Kind) (start : Nat) : Parse Node := do
  let typeParams ← typeParameters? g
  let params ← formalParameters g
  let result ← returnType? g
  endMember
  node kind start (typeParams.toList ++ params ++ result.toList)

/-- An accessor in an object type. -/
def accessorSignature (g : Rules) (start : Nat) : Parse Node := do
  advance
  let (key, _) ← propertyName g
  let params ← formalParameters g
  let result ← returnType? g
  endMember
  node .tsMethodSignature start (key :: params ++ result.toList)

/-- A property or method of an object type. -/
def propertySignature (g : Rules) (start : Nat) : Parse Node := do
  let (key, _) ← propertyName g
  let _ ← eat "?"
  if (← atSymbol "(") || (← atSymbol "<") then
    let typeParams ← typeParameters? g
    let params ← formalParameters g
    let result ← returnType? g
    endMember
    node .tsMethodSignature start (key :: typeParams.toList ++ params ++ result.toList)
  else
    let type ← typeAscription? g
    endMember
    node .tsPropertySignature start (key :: type.toList)

/-- A member of an object type. -/
def typeMember (g : Rules) : Parse Node := do
  let start ← here
  if (← atSymbol "(") || (← atSymbol "<") then
    return ← signature g .tsCallSignatureDeclaration start
  if (← atWord "new") && (← nextIs do return (← atSymbol "(") || (← atSymbol "<")) then
    advance
    return ← signature g .tsConstructSignatureDeclaration start
  let _ ← many do
    if ← atModifier ["readonly"] then
      advance
      return some ()
    else return none
  if (← atAccessorWord "get") || (← atAccessorWord "set") then
    return ← accessorSignature g start
  if ← atIndexSignature then
    let n ← indexSignature g start
    endMember
    return ← closeNode n
  propertySignature g start

/-- The members between braces. -/
def typeMembers (g : Rules) : Parse (List Node) := do
  expect "\x7b"
  let members ← many do
    if ← atSymbol "\x7d" then return none
    some <$> typeMember g
  expect "\x7d"
  return members

/-- Whether a mapped type starts here. -/
def atMappedType : Parse Bool :=
  nextIs do
    if (← atSymbol "+") || (← atSymbol "-") then
      advance
      return ← atWord "readonly"
    let _ ← eatWord "readonly"
    if !(← eat "[") then return false
    if !(← atName) then return false
    advance
    atWord "in"

/-- A mapped type. -/
def mappedType (g : Rules) : Parse Node := do
  let start ← here
  expect "\x7b"
  if (← eat "+") || (← eat "-") then expectWord "readonly" else let _ ← eatWord "readonly"
  expect "["
  if !(← atName) then reject
  let key ← bindingIdentifier
  expectWord "in"
  let constraint ← g .type
  let nameType ← if ← eatWord "as" then some <$> g .type else pure none
  expect "]"
  if (← eat "+") || (← eat "-") then expect "?" else let _ ← eat "?"
  let value ← if ← eat ":" then some <$> g .type else pure none
  let _ ← eat ";"
  expect "\x7d"
  node .tsMappedType start (key :: constraint :: nameType.toList ++ value.toList)

/-! ## Tuples -/

/-- Whether the element of a tuple has a label. -/
def atTupleLabel : Parse Bool :=
  lookahead do
    let _ ← eat "..."
    if !(← atName) then return false
    advance
    if ← atSymbol ":" then return true
    if ← eat "?" then atSymbol ":" else return false

/-- The type of an element of a tuple; a question mark makes it optional. -/
def tupleElementType (g : Rules) : Parse Node := do
  let start ← here
  if ← eat "..." then
    node .tsRestType start [← g .type]
  else
    let t ← g .type
    match t.kind, t.children with
    | .jsdocNullableType, [inner] =>
      if inner.start == t.start then return ⟨.tsOptionalType, t.span, [inner]⟩ else return t
    | _, _ => return t

def tupleElement (g : Rules) : Parse Node := do
  let start ← here
  if ← atTupleLabel then
    let rest ← eat "..."
    let memberStart ← here
    let label ← identifierName
    let _ ← eat "?"
    expect ":"
    let type ← tupleElementType g
    let member ← node .tsNamedTupleMember memberStart [label, type]
    if rest then node .tsRestType start [member] else return member
  else tupleElementType g

/-! ## Types without operators -/

/-- The types that are a word. -/
def keywordType? (word : String) : Option Kind :=
  match word with
  | "any" => some .tsAnyKeyword
  | "unknown" => some .tsUnknownKeyword
  | "string" => some .tsStringKeyword
  | "number" => some .tsNumberKeyword
  | "bigint" => some .tsBigIntKeyword
  | "symbol" => some .tsSymbolKeyword
  | "boolean" => some .tsBooleanKeyword
  | "undefined" => some .tsUndefinedKeyword
  | "never" => some .tsNeverKeyword
  | "object" => some .tsObjectKeyword
  | _ => none

/-- A literal as a type. -/
def literalType (literal : Parse Node) : Parse Node := do
  let start ← here
  let n ← literal
  node .tsLiteralType start [n]

/-- A negative number. -/
def negativeNumber : Parse Node := do
  let start ← here
  expect "-"
  let n ← numericLiteral
  node .unaryExpression start [n]

/-- The type of `this`, or a predicate on it. -/
def thisType (g : Rules) : Parse Node := do
  let start ← here
  let this ← leaf .tsThisType
  if (← atWord "is") && !(← onNewLine) then
    advance
    node .tsTypePredicate start [this, ← predicateType g]
  else return this

/-- A predicate behind `asserts`. -/
def assertsPredicate (g : Rules) : Parse Node := do
  let start ← here
  advance
  let subject ← if ← atWord "this" then leaf .tsThisType else identifierName
  if (← atWord "is") && !(← onNewLine) then
    advance
    node .tsTypePredicate start [subject, ← predicateType g]
  else node .tsTypePredicate start [subject]

/-- A name inside an imported module. -/
def importedName : Parse Node := do
  let start ← here
  let root ← identifierName
  loop root fun left => do
    if ← eat "." then
      let right ← identifierName
      return some (← node .tsImportTypeQualifiedName start [left, right])
    else return none

/-- A type of another module. -/
def importType (g : Rules) : Parse Node := do
  let start ← here
  let _ ← eatWord "typeof"
  expectWord "import"
  expect "("
  let source ← stringLiteral
  let options ←
    if (← eat ",") && (← atSymbol "\x7b") then some <$> g (.assignment true) else pure none
  if options.isSome then
    let _ ← eat ","
  expect ")"
  let qualifier ← if ← eat "." then some <$> importedName else pure none
  let args ← typeArgumentsOfType? g
  node .tsImportType start (source :: options.toList ++ qualifier.toList ++ args.toList)

/-- The type of a value. -/
def typeQuery (g : Rules) : Parse Node := do
  let start ← here
  expectWord "typeof"
  let name ← if ← atWord "import" then importType g else typeName
  let args ←
    match name.kind with
    | .tsImportType => pure none
    | _ => typeArgumentsOfType? g
  node .tsTypeQuery start (name :: args.toList)

/-- A type that starts with a word. -/
def wordType (g : Rules) (word : String) : Parse Node := do
  match keywordType? word with
  | some kind =>
    if ← nextIs (atSymbol ".") then typeReference g else leaf kind
  | none =>
    match word with
    | "void" => leaf .tsVoidKeyword
    | "null" => leaf .tsNullKeyword
    | "this" => thisType g
    | "typeof" => typeQuery g
    | "import" => importType g
    | "true" | "false" => literalType (leaf .booleanLiteral)
    | "asserts" =>
      if ← nextIs do return (← atName) && !(← onNewLine) then assertsPredicate g
      else typeReference g
    | _ => typeReference g

/-- A template as a type; without substitutions it is a literal. -/
def templateType (g : Rules) (closed : Bool) : Parse Node :=
  if closed then literalType (templateLiteral g false)
  else template .tsTemplateLiteralType (g .type) false

/-- A type without operators before or after it. -/
def primaryType (g : Rules) : Parse Node := do
  let start ← here
  match (← token).kind with
  | .word word => wordType g word
  | .string _ => literalType stringLiteral
  | .number | .bigint => literalType numericLiteral
  | .template closed _ => templateType g closed
  | .symbol "-" => literalType negativeNumber
  | .symbol "\x7b" =>
    if ← atMappedType then mappedType g
    else node .tsTypeLiteral start (← typeMembers g)
  | .symbol "[" =>
    advance
    let elements ← separated "," "]" (tupleElement g)
    expect "]"
    node .tsTupleType start elements
  | .symbol "(" =>
    advance
    let t ← g .type
    expect ")"
    node .tsParenthesizedType start [t]
  | .symbol "?" =>
    advance
    match (← token).kind with
    | .symbol s =>
      if [",", "\x7d", ")", ">", "=", "|"].contains s then node .jsdocUnknownType start []
      else node .jsdocNullableType start [← g .type]
    | _ => node .jsdocNullableType start [← g .type]
  | .symbol "!" =>
    advance
    node .jsdocNonNullableType start [← g .typeOperator]
  | _ => reject

/-- Whether a type can start here. -/
def atTypeStart : Parse Bool := do
  match (← token).kind with
  | .word name =>
    return !reservedWords.contains name ||
      ["void", "null", "this", "typeof", "true", "false", "new", "import", "function"].contains name
  | .string _ | .number | .bigint | .template .. => return true
  | .symbol s =>
    if s == "-" then nextIs atNumber
    else return ["\x7b", "[", "<", "|", "&", "*", "?", "!", "...", "("].contains s
  | _ => return false

/-- A type with the brackets and marks behind it. -/
def postfixType (g : Rules) : Parse Node := do
  let start ← here
  let first ← primaryType g
  loop first fun t => do
    if ← onNewLine then return none
    match (← token).kind with
    | .symbol "!" =>
      advance
      return some (← node .jsdocNonNullableType start [t])
    | .symbol "?" =>
      if ← nextIs atTypeStart then return none
      advance
      return some (← node .jsdocNullableType start [t])
    | .symbol "[" =>
      advance
      if ← atSymbol "]" then
        advance
        return some (← node .tsArrayType start [t])
      else
        let index ← g .type
        expect "]"
        return some (← node .tsIndexedAccessType start [t, index])
    | _ => return none

/-! ## Operators -/

/-- The constraint of an inferred type, unless it turns out to be the condition of a type. -/
def inferConstraint (g : Rules) : Parse Node := do
  expectWord "extends"
  let t ← within ({ · with allowConditionalTypes := false }) (g .type)
  if (← read).allowConditionalTypes && (← atSymbol "?") then reject
  return t

/-- A type that is inferred. -/
def inferType (g : Rules) : Parse Node := do
  let start ← here
  expectWord "infer"
  let paramStart ← here
  let name ← bindingIdentifier
  let constraint ← attempt (inferConstraint g)
  let param ← node .tsTypeParameter paramStart (name :: constraint.toList)
  node .tsInferType start [param]

/-- A type with the operators before it. -/
def operatorType (g : Rules) : Parse Node := do
  let start ← here
  if (← atWord "keyof") || (← atWord "unique") || (← atWord "readonly") then
    advance
    node .tsTypeOperator start [← g .typeOperator]
  else if ← atWord "infer" then inferType g
  else within ({ · with allowConditionalTypes := true }) (postfixType g)

/-- Types joined by an operator, which may also stand before the first one. -/
def joinedTypes (operator : String) (kind : Kind) (item : Parse Node) : Parse Node := do
  let start ← here
  let leading ← eat operator
  let first ← item
  if leading || (← atSymbol operator) then
    let others ← many do
      if ← eat operator then some <$> item else return none
    node kind start (first :: others)
  else return first

/-- A union of intersections. -/
def unionType (g : Rules) : Parse Node :=
  joinedTypes "|" .tsUnionType (joinedTypes "&" .tsIntersectionType (g .typeOperator))

/-- A type. -/
def typeRule (g : Rules) : Parse Node := do
  if ← atFunctionType g then return ← functionType g
  let start ← here
  let check ← unionType g
  if (← read).allowConditionalTypes && (← atWord "extends") && !(← onNewLine) then
    advance
    let bound ← within ({ · with allowConditionalTypes := false }) (g .type)
    expect "?"
    let whenTrue ← g .type
    expect ":"
    let whenFalse ← g .type
    node .tsConditionalType start [check, bound, whenTrue, whenFalse]
  else return check

end ComponentScan.Syntax
