import ComponentScan.Syntax.Grammar.Literal

/-!
# Calls and accesses

What binds most strongly: names and literals with the accesses, calls and type arguments behind
them. A chain with an optional access in it is one node around all of its links, up to a
parenthesis.
-/

namespace ComponentScan.Syntax

open Parse

/-! ## Type arguments in expressions -/

/-- The precedence of a binary operator; a higher one binds more strongly. -/
def binaryPrecedence? (t : Token) : Option Nat :=
  match t.kind with
  | .symbol s =>
    if s == "??" then some 1
    else if s == "||" then some 2
    else if s == "&&" then some 3
    else if s == "|" then some 4
    else if s == "^" then some 5
    else if s == "&" then some 6
    else if ["==", "!=", "===", "!=="].contains s then some 7
    else if ["<", ">", "<=", ">="].contains s then some 8
    else if ["<<", ">>", ">>>"].contains s then some 9
    else if s == "+" || s == "-" then some 10
    else if s == "*" || s == "/" || s == "%" then some 11
    else if s == "**" then some 12
    else none
  | .word s =>
    if ["in", "instanceof", "as", "satisfies"].contains s && !t.escaped then some 8 else none
  | _ => none

/-- Whether a binary operator stands here. -/
def atBinaryOperator : Parse Bool := do
  let t ← token
  if t.isWord "in" && !(← read).allowIn then return false
  return (binaryPrecedence? t).isSome

/-- Whether an expression can start here. -/
def atExpressionStart : Parse Bool := do
  match (← token).kind with
  | .word name =>
    return !reservedWords.contains name ||
      ["this", "super", "null", "true", "false", "function", "class", "new", "delete", "typeof",
        "void", "import"].contains name
  | .string _ | .number | .bigint | .template .. | .privateName _ => return true
  | .symbol s =>
    return ["(", "[", "\x7b", "/", "/=", "+", "-", "~", "!", "++", "--", "<", "@"].contains s
  | _ => return false

/-- Whether what comes here can follow type arguments in an expression. -/
def canFollowTypeArguments : Parse Bool := do
  match (← token).kind with
  | .symbol "(" | .template .. => return true
  | .symbol "<" | .symbol ">" | .symbol "+" | .symbol "-" => return false
  | _ => return (← onNewLine) || (← atBinaryOperator) || !(← atExpressionStart)

/-- Type arguments, as far as they are not two comparisons. -/
def expressionTypeArguments (g : Rules) : Parse Node := do
  let start ← here
  splitAngle
  expect "<"
  let args ← within ({ · with allowConditionalTypes := true }) <| separated "," ">" (g .type)
  reread (lexSign angleSigns)
  if ← atSymbol ">=" then reject
  reread (lexSign [['>']])
  expect ">"
  faultIf args.isEmpty
  let n ← node .tsTypeParameterInstantiation start args
  if ← canFollowTypeArguments then return n else reject

/-- Type arguments, if they stand here. -/
def expressionTypeArguments? (g : Rules) : Parse (Option Node) := do
  if !(← read).dialect.typescript then return none
  if (← atSymbol "<") || (← atSymbol "<<") then attempt (expressionTypeArguments g) else return none

/-! ## Calls and accesses -/

/-- The arguments of a call between parentheses. -/
def callArguments (g : Rules) : Parse (List Node) := do
  expect "("
  let args ← enclosed <| separated "," ")" do
    if ← atSymbol "..." then spreadElement g else g (.assignment true)
  expect ")"
  return args

def isTemplateToken : TokenKind → Bool
  | .template .. => true
  | _ => false

/-- An access by name, after its full stop. -/
def namedAccess (start : Nat) (object : Node) : Parse Node := do
  match (← token).kind with
  | .privateName _ => node .privateFieldExpression start [object, ← privateIdentifier]
  | _ => node .staticMemberExpression start [object, ← identifierName]

/-- An access by a value in brackets. -/
def computedAccess (g : Rules) (start : Nat) (object : Node) : Parse Node := do
  expect "["
  let key ← enclosed (g .expression)
  expect "]"
  node .computedMemberExpression start [object, key]

/-- A template behind its tag. -/
def taggedTemplate (g : Rules) (start : Nat) (tag : Node) : Parse Node := do
  let (tag, typeArgs) := splitInstantiation tag
  let quasi ← templateLiteral g true
  node .taggedTemplateExpression start (tag :: typeArgs.toList ++ [quasi])

/-- Whether an optional access and not an optional call comes here. -/
def atOptionalAccess : Parse Bool := do
  if ← atSymbol "?." then
    nextIs do
      match (← token).kind with
      | .word _ | .privateName _ | .template .. => return true
      | .symbol s => return s == "["
      | _ => return false
  else return false

/-- One access to an object, and whether it is an optional one; none if no access comes here.
`inChain` tells whether an optional access comes before it. -/
def access? (g : Rules) (start : Nat) (allowOptional inChain : Bool) (object : Node) :
    Parse (Option (Node × Bool)) := do
  let ctx ← read
  let t ← token
  match t.kind with
  | .symbol "." =>
    advance
    return some (← namedAccess start object, false)
  | .symbol "?." =>
    if !allowOptional || !(← atOptionalAccess) then return none
    advance
    if isTemplateToken (← token).kind then reject
    if ← atSymbol "[" then return some (← computedAccess g start object, true)
    return some (← namedAccess start object, true)
  | .symbol "[" =>
    if ctx.inDecorator then return none
    return some (← computedAccess g start object, false)
  | .symbol "!" =>
    if t.newlineBefore || !ctx.dialect.typescript then return none
    advance
    return some (← node .tsNonNullExpression start [object], false)
  | .template .. =>
    faultIf inChain
    return some (← taggedTemplate g start object, false)
  | _ =>
    match ← expressionTypeArguments? g with
    | some args => return some (← node .tsInstantiationExpression start [object, args], false)
    | none => return none

/-- The accesses to an object, and whether there is an optional one among them. -/
def accesses (g : Rules) (start : Nat) (allowOptional inChain : Bool) (object : Node) :
    Parse (Node × Bool) :=
  loop (object, inChain) fun (object, inChain) => do
    match ← access? g start allowOptional inChain object with
    | some (object, optional) => return some (object, inChain || optional)
    | none => return none

/-- The callee and type arguments of a call: those of an optional call stand after its mark, those
of a plain one have been read with the callee. -/
def calleeParts (g : Rules) (optional : Bool) (callee : Node) : Parse (Node × Option Node) := do
  if optional then return (callee, ← expressionTypeArguments? g)
  else return splitInstantiation callee

/-- A call, and whether it is an optional one; none if no call comes here. -/
def call? (g : Rules) (start : Nat) (callee : Node) : Parse (Option (Node × Bool)) := do
  let optional ← eat "?."
  if optional || (← atSymbol "(") then
    let (callee, typeArgs) ← calleeParts g optional callee
    let args ← callArguments g
    return some (← node .callExpression start (callee :: typeArgs.toList ++ args), optional)
  else return none

/-- The accesses to an object and the calls of it, and whether there is an optional one. -/
def accessesAndCalls (g : Rules) (start : Nat) (object : Node) : Parse (Node × Bool) :=
  loop (object, false) fun (object, inChain) => do
    let link ← match ← access? g start true inChain object with
      | some link => pure (some link)
      | none => call? g start object
    return link.map fun (object, optional) => (object, inChain || optional)

/-- Puts a chain around accesses and calls; type arguments at the end stay outside. -/
def wrapChain (n : Node) : Node :=
  match n.kind, n.children with
  | .tsInstantiationExpression, [inner, args] =>
    ⟨.tsInstantiationExpression, n.span, [⟨.chainExpression, inner.span, [inner]⟩, args]⟩
  | _, _ => ⟨.chainExpression, n.span, [n]⟩

/-! ## Where accesses start -/

/-- A pair of words with a full stop between them, the first of which has been taken. -/
def metaProperty (first : Token) (firstName secondName : String) : Parse Node := do
  if !(← atWord secondName) then reject
  let second ← identifierName
  node .metaProperty first.start
    [⟨.identifierName firstName, ⟨first.start, first.stop⟩, []⟩, second]

/-- What `new` constructs, without an optional access. -/
def newExpression (g : Rules) : Parse Node := do
  let first ← token
  expectWord "new"
  if ← eat "." then return ← metaProperty first "new" "target"
  let callee ← g .constructed
  match callee.kind with
  | .importExpression => fault
  | _ => pure ()
  faultIf (← atSymbol "?.")
  let (callee, typeArgs) := splitInstantiation callee
  let args ← if ← atSymbol "(" then callArguments g else pure []
  node .newExpression first.start (callee :: typeArgs.toList ++ args)

/-- An import inside an expression. -/
def importExpression (g : Rules) : Parse Node := do
  let first ← token
  expectWord "import"
  if ← eat "." then
    if !((← atWord "source") || (← atWord "defer")) then
      modify fun s => { s with isModule := true }
      return ← metaProperty first "import" "meta"
    advance
  expect "("
  let args ← enclosed <| separated "," ")" (g (.assignment true))
  expect ")"
  if args.length = 1 ∨ args.length = 2 then node .importExpression first.start args else reject

/-- The base of a class, of which a member or call follows. -/
def superExpression : Parse Node := do
  let n ← leaf .super
  if (← atSymbol ".") || (← atSymbol "[") || (← atSymbol "(") then return n else reject

/-- A regular expression, whose opening slash is the current token. -/
def regExpLiteral : Parse Node := do
  reread lexRegex
  if (← token).kind == .regex then leaf .regExpLiteral else reject

/-- An expression that starts with a word. -/
def wordExpression (g : Rules) (word : String) : Parse Node := do
  match word with
  | "this" => leaf .thisExpression
  | "null" => leaf .nullLiteral
  | "true" | "false" => leaf .booleanLiteral
  | "function" => functionExpression g
  | "class" => classExpression g
  | "new" => newExpression g
  | "import" => importExpression g
  | "super" => superExpression
  | _ => if ← atAsyncFunction then functionExpression g else identifierReference

/-- An expression without operators, accesses and calls. -/
def primary (g : Rules) : Parse Node := do
  let t ← token
  match t.kind with
  | .word word => if t.escaped then identifierReference else wordExpression g word
  | .string _ => stringLiteral
  | .number | .bigint => numericLiteral
  | .template .. => templateLiteral g false
  | .symbol "(" => parenthesized g
  | .symbol "[" => arrayLiteral g
  | .symbol "\x7b" => objectLiteral g
  | .symbol "/" | .symbol "/=" => regExpLiteral
  | .symbol "@" => classExpression g
  | _ => reject

/-- What `new` constructs. -/
def constructedRule (g : Rules) : Parse Node := do
  let start ← here
  let (n, _) ← accesses g start false false (← primary g)
  return n

/-- What calls, accesses and updates apply to. -/
def leftHandSideRule (g : Rules) : Parse Node := do
  let start ← here
  let (n, inChain) ← accessesAndCalls g start (← primary g)
  return if inChain then wrapChain n else n

end ComponentScan.Syntax
