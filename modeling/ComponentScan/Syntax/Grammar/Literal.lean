import ComponentScan.Syntax.Grammar.Function

/-!
# Arrays, objects and parentheses
-/

namespace ComponentScan.Syntax

open Parse

/-- A spread element; whether a comma follows it is noted, since a target may not have one. -/
def spreadElement (g : Rules) : Parse Node := do
  let start ← here
  expect "..."
  let e ← g (.assignment true)
  let stop ← lastStop
  return ⟨.spreadElement (← atSymbol ","), ⟨start, stop⟩, [e]⟩

/-- An array; a hole is a node with the place of the comma after it. -/
def arrayLiteral (g : Rules) : Parse Node := do
  let start ← here
  expect "["
  let elements ← enclosed <| separated "," "]" do
    let t ← token
    if t.isSymbol "," then return ⟨.elision, ⟨t.start, t.stop⟩, []⟩
    if t.isSymbol "..." then spreadElement g else g (.assignment true)
  expect "]"
  node .arrayExpression start elements

/-! ## Objects -/

/-- A property whose value is a function. -/
def objectMethod (g : Rules) (start : Nat) (isAsync isGenerator : Bool) (key : Node) :
    Parse Node := do
  let fnStart ← here
  let head ← functionHead g isAsync isGenerator
  let body ← functionBody g isAsync isGenerator
  let f ← node (.function false) fnStart (head ++ [body])
  node .objectProperty start [key, f]

/-- A getter or setter. -/
def objectAccessor (g : Rules) (start : Nat) : Parse Node := do
  let getter ← atWord "get"
  advance
  let (key, _) ← propertyName g
  let fnStart ← here
  let head ← functionHead g false false
  let body ← functionBody g false false
  let f ← node (.function false) fnStart (head ++ [body])
  if getter then checkGetter f else checkSetter f
  node .objectProperty start [key, f]

/-- A name that is key and value at once. With a default it has a third part, which only a target
may have. -/
def shorthandProperty (g : Rules) : Parse Node := do
  let start ← here
  let value ← identifierReference
  let key : Node := ⟨.identifierName (value.text?.getD ""), value.span, []⟩
  if ← eat "=" then
    let default ← g (.assignment true)
    node .objectProperty start [key, value, default]
  else node .objectProperty start [key, value]

/-- Whether the current word is a key of its own and no modifier of the key after it. -/
def isLoneWord : Parse Bool :=
  nextIs do
    match (← token).kind with
    | .symbol s => return [":", ",", "\x7d", "(", "<", "="].contains s
    | _ => return false

/-- A property of an object. -/
def objectProperty (g : Rules) : Parse Node := do
  let start ← here
  let t ← token
  if t.isSymbol "..." then return ← spreadElement g
  let lone ← if t.kind.isName then isLoneWord else pure false
  if !lone && (t.isWord "get" || t.isWord "set") then return ← objectAccessor g start
  let isAsync ←
    if !lone && t.isWord "async" then
      advance
      faultIf (← onNewLine)
      pure true
    else pure false
  let isGenerator ← eat "*"
  if !isAsync && !isGenerator && (← atIdentifier) then
    if ← nextIs do return (← atSymbol ",") || (← atSymbol "\x7d") || (← atSymbol "=") then
      return ← shorthandProperty g
  let (key, _) ← propertyName g
  match key.kind with
  | .privateIdentifier _ => fault
  | _ => pure ()
  if isAsync || isGenerator || (← atSymbol "(") || (← atSymbol "<") then
    objectMethod g start isAsync isGenerator key
  else
    expect ":"
    let value ← g (.assignment true)
    node .objectProperty start [key, value]

/-- An object. -/
def objectLiteral (g : Rules) : Parse Node := do
  let start ← here
  expect "\x7b"
  let properties ← enclosed <| separated "," "\x7d" (objectProperty g)
  expect "\x7d"
  node .objectExpression start properties

/-! ## Parentheses -/

/-- An expression in parentheses. -/
def parenthesized (g : Rules) : Parse Node := do
  let start ← here
  expect "("
  let e ← enclosed (g .expression)
  expect ")"
  node .parenthesizedExpression start [e]

end ComponentScan.Syntax
