import ComponentScan.Syntax.Grammar.Name

/-!
# Binding patterns, decorators and parameters
-/

namespace ComponentScan.Syntax

open Parse

/-- A pattern with the initialiser it may have. -/
def bindingElement (g : Rules) : Parse Node := do
  let start ← here
  let target ← g .binding
  if ← eat "=" then
    let value ← enclosed (g (.assignment true))
    node .assignmentPattern start [target, value]
  else return target

/-- A rest element. -/
def bindingRest (g : Rules) : Parse Node := do
  let start ← here
  expect "..."
  let target ← g .binding
  node .bindingRestElement start [target]

/-- A property of an object pattern. A lone name is key and target at once. -/
def bindingProperty (g : Rules) : Parse Node := do
  let start ← here
  let t ← token
  if t.kind.isName && !(← nextIs (atSymbol ":")) then
    let name := match t.kind with
      | .word name => name
      | _ => ""
    let target ← bindingIdentifier
    let key : Node := ⟨.identifierName name, target.span, []⟩
    if ← eat "=" then
      let value ← enclosed (g (.assignment true))
      let value ← node .assignmentPattern start [target, value]
      node .bindingProperty start [key, value]
    else node .bindingProperty start [key, target]
  else
    let (key, _) ← propertyName g
    expect ":"
    let value ← bindingElement g
    node .bindingProperty start [key, value]

/-- An object pattern; a rest element stands last, without a comma, and names a variable. -/
def objectPattern (g : Rules) : Parse Node := do
  let start ← here
  expect "\x7b"
  let properties ← separated "," "\x7d" do
    if ← atSymbol "..." then
      let rest ← bindingRest g
      faultIf (!(rest.children.all (·.kind.isBindingIdentifier)))
      if !(← atSymbol "\x7d") then reject
      return rest
    else bindingProperty g
  expect "\x7d"
  node .objectPattern start properties

/-- An array pattern; holes leave no node, and a rest element stands last, without a comma. -/
def arrayPattern (g : Rules) : Parse Node := do
  let start ← here
  expect "["
  let (reversed, _) ← loop ([], true) fun (acc, mayGoOn) => do
    if ← atSymbol "]" then return none
    if ← eat "," then return some (acc, true)
    if !mayGoOn then reject
    if ← atSymbol "..." then
      let rest ← bindingRest g
      if !(← atSymbol "]") then reject
      return some (rest :: acc, false)
    let element ← bindingElement g
    if !(← atSymbol "]") then expect ","
    return some (element :: acc, true)
  expect "]"
  node .arrayPattern start reversed.reverse

/-- A name or pattern that is bound. -/
def bindingTarget (g : Rules) : Parse Node := do
  match (← token).kind with
  | .symbol "\x7b" => objectPattern g
  | .symbol "[" => arrayPattern g
  | _ => bindingIdentifier

/-! ## Decorators -/

def decorator (g : Rules) : Parse Node := do
  let start ← here
  expect "@"
  let e ← within ({ · with inDecorator := true }) (g .leftHandSide)
  node .decorator start [e]

def decorators (g : Rules) : Parse (List Node) :=
  many do
    if ← atSymbol "@" then some <$> decorator g else return none

/-! ## Parameters -/

/-- The words that make a parameter a property. -/
def parameterModifiers : List String :=
  ["public", "private", "protected", "readonly", "override"]

/-- Whether the current token can come after a modifier: the start of a name or pattern. -/
def canFollowModifier : Parse Bool := do
  match (← token).kind with
  | .word _ | .string _ | .number | .bigint | .privateName _ => return true
  | .symbol s => return s == "[" || s == "\x7b" || s == "*" || s == "..."
  | _ => return false

/-- Whether a modifier of the given list stands here, and not a name of the same spelling: what it
modifies follows on its line. -/
def atModifier (modifiers : List String) : Parse Bool := do
  match (← token).kind with
  | .word name =>
    if modifiers.contains name && !(← token).escaped then
      nextIs do return (← canFollowModifier) && !(← onNewLine)
    else return false
  | _ => return false

/-- Takes the modifiers of a parameter. -/
def skipParameterModifiers : Parse Unit := do
  if (← read).dialect.typescript then
    let _ ← many do
      if ← atModifier parameterModifiers then
        advance
        return some ()
      else return none

/-- A parameter, with its decorators, modifiers, type and initialiser. -/
def formalParameter (g : Rules) : Parse Node := do
  let start ← here
  let decos ← decorators g
  skipParameterModifiers
  let target ← g .binding
  let ts := (← read).dialect.typescript
  let optional ← if ts then eat "?" else pure false
  let type ← typeAscription? g
  let value ← if ← eat "=" then some <$> enclosed (g (.assignment true)) else pure none
  faultIf (optional && value.isSome)
  node .formalParameter start (decos ++ target :: type.toList ++ value.toList)

/-- A rest parameter; its type is not part of its text. -/
def restParameter (g : Rules) : Parse Node := do
  let start ← here
  let decos ← decorators g
  let rest ← bindingRest g
  let stop ← lastStop
  if (← read).dialect.typescript then faultIf (← eat "?")
  let type ← typeAscription? g
  faultIf (← eat "=")
  faultIf (!decos.isEmpty)
  return ⟨.formalParameterRest, ⟨start, stop⟩, rest :: type.toList⟩

/-- The parameter that gives the type of `this`. -/
def thisParameter? (g : Rules) : Parse (Option Node) := do
  if (← read).dialect.typescript && (← atWord "this") then
    let start ← here
    advance
    let type ← typeAscription? g
    let n ← node .tsThisParameter start type.toList
    if !(← atSymbol ")") then expect ","
    return some n
  else return none

/-- Parameters between parentheses: the one for `this`, if given, and the list. A rest parameter
stands last, without a comma. -/
def formalParameters (g : Rules) : Parse (List Node) := do
  let start ← here
  expect "("
  let params : Parse (Option Node × List Node) := do
    let this ← thisParameter? g
    let items ← separated "," ")" do
      if ← atSymbol "..." then
        let rest ← restParameter g
        if !(← atSymbol ")") then reject
        return rest
      else formalParameter g
    return (this, items)
  let (this, items) ← enclosed params
  expect ")"
  let list ← node .formalParameters start items
  return this.toList ++ [list]

end ComponentScan.Syntax
