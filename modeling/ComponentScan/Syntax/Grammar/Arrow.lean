import ComponentScan.Syntax.Grammar.Member

/-!
# Arrow functions

The head of an arrow function looks like an expression in parentheses, or like a comparison, until
its arrow. A few tokens decide most cases; the others are tried as an arrow function first.
-/

namespace ComponentScan.Syntax

open Parse

/-- How far the next tokens tell that an arrow function starts. -/
inductive Guess
  | no | maybe | yes
  deriving DecidableEq, Inhabited

/-- The words that may stand before a parameter or declaration. -/
def modifierWords : List String :=
  ["abstract", "accessor", "async", "const", "declare", "default", "export", "in", "out", "override",
    "private", "protected", "public", "readonly", "static"]

def atSymbolOf (signs : List String) : Parse Bool := do
  match (← token).kind with
  | .symbol s => return signs.contains s
  | _ => return false

/-- The guess after an opening parenthesis. -/
def guessAfterParenthesis : Parse Guess := do
  let t ← token
  if ← eat ")" then return if ← atSymbolOf ["=>", ":", "\x7b"] then .yes else .no
  if ← atSymbolOf ["[", "\x7b"] then return .maybe
  if ← atSymbol "..." then return .yes
  if !(← atName) then return .no
  advance
  let modifies := match t.kind with
    | .word name => modifierWords.contains name && name != "async"
    | _ => false
  if modifies && (← atIdentifier) then return if ← atWord "as" then .no else .yes
  if !t.kind.isIdentifier && !t.isWord "this" then return .no
  if ← atSymbol ":" then return .yes
  if ← eat "?" then return if ← atSymbolOf [":", ",", "=", ")"] then .yes else .no
  if ← atSymbolOf [",", "=", ")"] then return .maybe
  return .no

/-- The guess after an opening angle bracket. -/
def guessAfterAngle : Parse Guess := do
  if !(← atIdentifier) && !(← atWord "const") then return .no
  if !(← read).dialect.jsx then return .maybe
  let _ ← eatWord "const"
  advance
  if ← eatWord "extends" then return if ← atSymbolOf ["=", ">", "/"] then .no else .yes
  return if ← atSymbolOf [",", "="] then .yes else .no

/-- Whether an arrow function with parentheses around its parameters starts here. -/
def guessArrow : Parse Guess :=
  ahead .no do
    if ← eatWord "async" then
      if ← onNewLine then return .no
    if ← eat "(" then return ← guessAfterParenthesis
    if (← read).dialect.typescript && (← eat "<") then return ← guessAfterAngle
    return .no

/-- The body of an arrow function: a block, or an expression that stands for a statement. -/
def arrowBody (g : Rules) (isAsync arrowReturn : Bool) : Parse Node := do
  if ← atSymbol "\x7b" then functionBody g isAsync false
  else
    let inBody (ctx : Context) : Context :=
      { ctx with allowAwait := isAsync, allowYield := false, topLevel := false }
    let e ← within inBody (g (.assignment arrowReturn))
    return ⟨.functionBody, e.span, [⟨.expressionStatement, e.span, [e]⟩]⟩

/-- Takes the arrow, which stands on the line of what comes before it. -/
def expectArrow : Parse Unit := do
  faultIf (← onNewLine)
  expect "=>"

/-- The head of an arrow function with parentheses, and whether it is asynchronous and has a
return type. -/
def arrowHead (g : Rules) : Parse (List Node × Bool × Bool) := do
  let isAsync ← eatWord "async"
  let typeParams ← typeParameters? g
  let params ← within (fun ctx => { ctx with allowAwait := ctx.allowAwait || isAsync })
    (formalParameters g)
  faultIf (params.length != 1)
  let result ← returnType? g
  expectArrow
  return (typeParams.toList ++ params ++ result.toList, isAsync, result.isSome)

/-- An arrow function with parentheses around its parameters. If return types are restricted, one
that has a return type is followed by a colon, as in a conditional expression. -/
def parenthesizedArrow (g : Rules) (arrowReturn mayGiveUp : Bool) : Parse Node := do
  let start ← here
  let (head, isAsync, hasReturnType) ← arrowHead g
  let body ← arrowBody g isAsync arrowReturn
  if mayGiveUp && !arrowReturn && hasReturnType && !(← atSymbol ":") then reject
  node .arrowFunctionExpression start (head ++ [body])

/-- An arrow function with one plain parameter, which has been read. -/
def simpleArrow (g : Rules) (start : Nat) (param : Node) (isAsync arrowReturn : Bool) :
    Parse Node := do
  let target : Node := ⟨.bindingIdentifier (param.text?.getD ""), param.span, []⟩
  let params : Node := ⟨.formalParameters, param.span, [⟨.formalParameter, param.span, [target]⟩]⟩
  expectArrow
  let body ← arrowBody g isAsync arrowReturn
  node .arrowFunctionExpression start [params, body]

/-- Whether an asynchronous arrow function with one plain parameter starts here. -/
def atAsyncSimpleArrow : Parse Bool := do
  if ← atWord "async" then
    nextIs do
      if (← onNewLine) || !(← atIdentifier) then return false
      advance
      return (← atSymbol "=>") && !(← onNewLine)
  else return false

/-- An arrow function with parentheses around its parameters, or one that is asynchronous, if it
stands here. -/
def arrow? (g : Rules) (arrowReturn : Bool) : Parse (Option Node) := do
  match ← guessArrow with
  | .yes => return some (← parenthesizedArrow g true false)
  | .maybe => attempt (parenthesizedArrow g arrowReturn true)
  | .no =>
    if ← atAsyncSimpleArrow then
      let start ← here
      advance
      let param ← within ({ · with allowAwait := true }) identifierReference
      return some (← simpleArrow g start param true arrowReturn)
    else return none

end ComponentScan.Syntax
