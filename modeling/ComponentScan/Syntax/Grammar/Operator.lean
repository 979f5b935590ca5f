import ComponentScan.Syntax.Grammar.Arrow
import ComponentScan.Syntax.Grammar.Target

/-!
# Operators
-/

namespace ComponentScan.Syntax

open Parse

/-! ## Operators with one operand -/

/-- Whether an operand follows the current word on its line. -/
def operandFollows : Parse Bool :=
  nextIs do
    if ← onNewLine then return false
    match (← token).kind with
    | .word _ | .string _ | .number | .bigint | .template .. => return true
    | _ => return false

/-- Whether `await` is an operator here: where it is allowed, and elsewhere if an operand follows. -/
def atAwait : Parse Bool := do
  if !(← atWord "await") then return false
  if (← read).allowAwait then return true
  operandFollows

/-- Takes note of waiting where it is not allowed. At the top level it makes a file a module that
may be one. -/
def noteAwait : Parse Unit := do
  let ctx ← read
  if !ctx.allowAwait then
    if ctx.topLevel && ctx.dialect.goal == .detected then
      modify fun s => { s with isModule := true }
    else fault

def awaitExpression (g : Rules) : Parse Node := do
  let start ← here
  noteAwait
  advance
  node .awaitExpression start [← within ({ · with allowAwait := true }) (g .unary)]

/-- A type before the expression that it is asserted of. -/
def typeAssertion (g : Rules) : Parse Node := do
  let start ← here
  expect "<"
  let type ← g .type
  expect ">"
  node .tsTypeAssertion start [type, ← g .unary]

/-- An increment or decrement, or what one would apply to. -/
def updateExpression (g : Rules) : Parse Node := do
  let start ← here
  if (← eat "++") || (← eat "--") then
    match (← g .unary).asSimpleTarget? with
    | some target => return ← node .updateExpression start [target]
    | none => reject
  let e ← g .leftHandSide
  if ((← atSymbol "++") || (← atSymbol "--")) && !(← onNewLine) then
    match e.asSimpleTarget? with
    | some target =>
      advance
      node .updateExpression start [target]
    | none => reject
  else return e

/-- An operand with the operators before it. -/
def unaryRule (g : Rules) : Parse Node := do
  let start ← here
  let t ← token
  let ctx ← read
  if ["delete", "void", "typeof"].any t.isWord || ["+", "-", "~", "!"].any t.isSymbol then
    advance
    return ← node .unaryExpression start [← g .unary]
  if t.isSymbol "<" then
    if ctx.dialect.jsx then return ← g (.jsxElement false)
    if ctx.dialect.typescript then return ← typeAssertion g
    reject
  if ← atAwait then return ← awaitExpression g
  updateExpression g

/-! ## Operators with two operands -/

/-- Whether a logical operator other than `??` is the outermost one. -/
def Kind.isMixed : Kind → Bool
  | .logicalExpression coalesces => !coalesces
  | _ => false

/-- Whether an operator without parentheses stands where a power does not allow it. -/
def Kind.isUnary : Kind → Bool
  | .unaryExpression | .awaitExpression => true
  | _ => false

/-- A test for a private member. -/
def privateIn (g : Rules) (above : Nat) : Parse Node := do
  let start ← here
  let name ← privateIdentifier
  faultIf (8 ≤ above)
  faultIf !(← read).allowIn
  expectWord "in"
  node .privateInExpression start [name, ← g (.binary 8)]

/-- The result of an operator and its operands. A logical operator may not stand next to `??` unless
it is in parentheses; an operand counts as such if it starts with one. -/
def combine (operator : String) (start : Nat) (left right : Node) (leftOpen rightOpen : Bool) :
    Parse Node := do
  let coalesces := operator == "??"
  if coalesces || operator == "||" || operator == "&&" then
    faultIf (coalesces && ((right.kind.isMixed && !rightOpen) || (left.kind.isMixed && !leftOpen)))
    node (.logicalExpression coalesces) start [left, right]
  else
    faultIf (operator == "**" && !leftOpen && left.kind.isUnary)
    node .binaryExpression start [left, right]

/-- The binary operator here, if it binds more strongly than `above`, and its precedence. A power
binds to the right. -/
def binaryOperator? (above : Nat) : Parse (Option (String × Nat)) := do
  if ← atSymbol ">" then reread (lexSign angleSigns)
  let t ← token
  let ctx ← read
  match binaryPrecedence? t with
  | some precedence =>
    let binds := if precedence = 12 then above ≤ precedence else above < precedence
    match t.kind with
    | .word name =>
      let stands := match name with
        | "in" => ctx.allowIn
        | "as" | "satisfies" => !t.newlineBefore && ctx.dialect.typescript
        | _ => true
      return if binds && stands then some (name, precedence) else none
    | .symbol sign => return if binds then some (sign, precedence) else none
    | _ => return none
  | none => return none

/-- Operators that bind more strongly than `above`, with their operands. -/
def binaryRule (g : Rules) (above : Nat) : Parse Node := do
  let start ← here
  let leftOpen ← atSymbol "("
  let first ← match (← token).kind with
    | .privateName _ => privateIn g above
    | _ => g .unary
  loop first fun left => do
    match ← binaryOperator? above with
    | none => return none
    | some ("as", _) =>
      advance
      return some (← node .tsAsExpression start [left, ← g .type])
    | some ("satisfies", _) =>
      advance
      return some (← node .tsSatisfiesExpression start [left, ← g .type])
    | some (operator, precedence) =>
      advance
      let rightOpen ← atSymbol "("
      let right ← g (.binary precedence)
      return some (← combine operator start left right leftOpen rightOpen)

/-! ## Assignments -/

/-- The operators that assign. -/
def assignmentOperators : List String :=
  ["=", "+=", "-=", "*=", "/=", "%=", "**=", "<<=", ">>=", ">>>=", "&=", "|=", "^=", "&&=", "||=",
    "??="]

/-- Whether `yield` is an operator here: where it is allowed, and elsewhere if an operand follows. -/
def atYield : Parse Bool := do
  if !(← atWord "yield") then return false
  if (← read).allowYield then return true
  operandFollows

def yieldExpression (g : Rules) : Parse Node := do
  let start ← here
  faultIf !(← read).allowYield
  advance
  if ← onNewLine then return ← node .yieldExpression start []
  let delegates ← eat "*"
  let bare := (← atEnd) || (← atWord "in") || (← atSymbolOf [";", "\x7d", "]", ")", ":", ","])
  if bare && !delegates then node .yieldExpression start []
  else node .yieldExpression start [← g (.assignment true)]

/-- An assignment to what has been read. -/
def assignmentTo (g : Rules) (start : Nat) (left : Node) (operator : String) (arrowReturn : Bool) :
    Parse Node := do
  let plain := operator == "="
  match if plain then left.asTarget? else left.asSimpleTarget? with
  | some target =>
    advance
    node (.assignmentExpression plain) start [target, ← g (.assignment arrowReturn)]
  | none => reject

/-- The branches of a condition that has been read. -/
def conditionalRest (g : Rules) (start : Nat) (test : Node) (arrowReturn : Bool) : Parse Node := do
  expect "?"
  let whenTrue ← within ({ · with allowIn := true }) (g (.assignment false))
  expect ":"
  let whenFalse ← g (.assignment arrowReturn)
  node .conditionalExpression start [test, whenTrue, whenFalse]

/-- One expression without commas. -/
def assignmentRule (g : Rules) (arrowReturn : Bool) : Parse Node := do
  if ← atYield then return ← yieldExpression g
  if let some n ← arrow? g arrowReturn then return n
  let start ← here
  let left ← g (.binary 0)
  match left.kind with
  | .identifierReference _ =>
    if ← atSymbol "=>" then return ← simpleArrow g start left false arrowReturn
  | _ => pure ()
  match (← token).kind with
  | .symbol "?" => conditionalRest g start left arrowReturn
  | .symbol s =>
    if assignmentOperators.contains s then assignmentTo g start left s arrowReturn
    else return left
  | _ => return left

/-- Expressions with commas between them. -/
def expressionRule (g : Rules) : Parse Node := do
  let start ← here
  let first ← g (.assignment true)
  if ← atSymbol "," then
    let others ← many do
      if ← eat "," then some <$> g (.assignment true) else return none
    node .sequenceExpression start (first :: others)
  else return first

end ComponentScan.Syntax
