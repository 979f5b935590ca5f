import ComponentScan.Syntax.Grammar.Type

/-!
# JSX elements

Between tags the text is read as text, so the parser of a tag or container says how the token after
it is read: as part of the children of the element around it, or as part of an expression.
-/

namespace ComponentScan.Syntax

open Parse

/-- Takes a closing sign, before more children if `nested` and before plain tokens otherwise. -/
def closeJsx (sign : String) (nested : Bool) : Parse Unit := do
  if !(← atSymbol sign) then reject
  if nested then advanceTight lexJsxChild else advance

/-! ## Names -/

/-- The name of a tag or attribute or a part of one, as it is written. -/
def jsxIdentifier : Parse Node := do
  if !(← atName) then reject
  let wordEnd := (← get).after
  reread fun c => lexJsxName c wordEnd
  match (← token).kind with
  | .word name => leaf (.jsxIdentifier name)
  | _ => reject

/-- Whether a name of a tag can be written in an expression. -/
def hasHyphen (n : Node) : Bool :=
  n.text?.any (·.toList.contains '-')

/-- The name of a tag as the start of a path of members. -/
def jsxRoot (n : Node) : Node :=
  match n.kind with
  | .jsxIdentifier "this" => { n with kind := .thisExpression }
  | .jsxIdentifier name => { n with kind := .identifierReference name }
  | _ => n

/-- The name of a tag on its own: intrinsic elements have a lower case ASCII letter first or a
hyphen. -/
def jsxTagName (n : Node) : Node :=
  match n.kind with
  | .jsxIdentifier name =>
    if name == "this" then jsxRoot n
    else if hasHyphen n || (name.toList.head?.any fun c => 'a' ≤ c && c ≤ 'z') then n
    else jsxRoot n
  | _ => n

/-- The name in a tag: plain, with a namespace, or a path of members. -/
def jsxElementName : Parse Node := do
  let start ← here
  let first ← jsxIdentifier
  if ← eat ":" then
    let name ← jsxIdentifier
    return ← node .jsxNamespacedName start [first, name]
  if !(← atSymbol ".") then return jsxTagName first
  faultIf (hasHyphen first)
  loop (jsxRoot first) fun object => do
    if ← eat "." then
      let property ← jsxIdentifier
      faultIf (hasHyphen property)
      return some (← node .jsxMemberExpression start [object, property])
    else return none

/-- The names in a tag, for comparison with those of another. -/
def jsxNames (n : Node) : List String :=
  match n.kind, n.children with
  | .jsxMemberExpression, [object, property] => "." :: (jsxPath object ++ property.text?.toList)
  | .jsxNamespacedName, [space, name] => ":" :: (space.text?.toList ++ name.text?.toList)
  | .thisExpression, _ => ["this"]
  | _, _ => n.text?.toList
where
  /-- The names of a path of members. -/
  jsxPath : Node → List String
    | ⟨.jsxMemberExpression, _, [object, property]⟩ => jsxPath object ++ property.text?.toList
    | ⟨.thisExpression, _, _⟩ => ["this"]
    | n => n.text?.toList

/-! ## Containers and attributes -/

/-- An expression in braces where a child or the value of an attribute stands. -/
def jsxContainer (g : Rules) (nested : Bool) : Parse Node := do
  let start ← here
  expect "\x7b"
  if nested && (← atSymbol "...") then
    advance
    let e ← enclosed (g .expression)
    closeJsx "\x7d" nested
    return ← node .jsxSpreadChild start [e]
  if ← atSymbol "\x7d" then
    faultIf (!nested)
    let inside : Span := ⟨start + 1, ← here⟩
    closeJsx "\x7d" nested
    return ← node .jsxExpressionContainer start [⟨.jsxEmptyExpression, inside, []⟩]
  let e ← enclosed (g .expression)
  match e.kind with
  | .sequenceExpression => fault
  | _ => pure ()
  closeJsx "\x7d" nested
  node .jsxExpressionContainer start [e]

def jsxAttributeName : Parse Node := do
  let start ← here
  let first ← jsxIdentifier
  if ← eat ":" then
    let name ← jsxIdentifier
    node .jsxNamespacedName start [first, name]
  else return first

/-- The value of an attribute after its equals sign, which is taken here. -/
def jsxAttributeValue (g : Rules) : Parse Node := do
  let size := (← read).size
  modify <| State.advance size fun c =>
    match c.rest with
    | '"' :: _ => lexJsxString '"' c
    | '\'' :: _ => lexJsxString '\'' c
    | _ => lex size c
  match (← token).kind with
  | .string _ => stringLiteral
  | .symbol "\x7b" => jsxContainer g false
  | .symbol "<" => g (.jsxElement false)
  | _ => reject

def jsxAttribute (g : Rules) : Parse Node := do
  let start ← here
  if ← atSymbol "\x7b" then
    advance
    expect "..."
    let e ← enclosed (g .expression)
    expect "\x7d"
    return ← node .jsxSpreadAttribute start [e]
  let name ← jsxAttributeName
  if ← atSymbol "=" then
    let value ← jsxAttributeValue g
    node .jsxAttribute start [name, value]
  else node .jsxAttribute start [name]

/-! ## Elements -/

/-- The children of an element or fragment, up to the opening bracket of the closing tag, which is
taken, and the start of that bracket. -/
def jsxChildren (g : Rules) : Parse (List Node × Nat) := do
  let children ← many do
    let start ← here
    match (← token).kind with
    | .jsxText =>
      let stop := (← token).stop
      advanceTight lexJsxChild
      return some ⟨.jsxText, ⟨start, stop⟩, []⟩
    | .symbol "\x7b" => some <$> jsxContainer g true
    | .symbol "<" =>
      if ← nextIs (atSymbol "/") then return none
      some <$> g (.jsxElement true)
    | _ => reject
  let start ← here
  expect "<"
  expect "/"
  return (children, start)

/-- A fragment after its opening bracket. -/
def jsxFragment (g : Rules) (start : Nat) (nested : Bool) : Parse Node := do
  closeJsx ">" true
  let opening ← node .jsxOpeningFragment start []
  let (children, closeStart) ← jsxChildren g
  closeJsx ">" nested
  let closing ← node .jsxClosingFragment closeStart []
  node .jsxFragment start (opening :: (children ++ [closing]))

/-- An element or fragment; an element has its own end or a closing tag of the same name. -/
def jsxElementRule (g : Rules) (nested : Bool) : Parse Node := do
  let start ← here
  expect "<"
  if ← atSymbol ">" then return ← jsxFragment g start nested
  let name ← jsxElementName
  let typeArgs ←
    if (← read).dialect.typescript && (← atSymbol "<") then some <$> typeArguments g else pure none
  let attributes ← many do
    if (← atSymbol ">") || (← atSymbol "/") then return none
    some <$> jsxAttribute g
  let parts := name :: (typeArgs.toList ++ attributes)
  if ← eat "/" then
    closeJsx ">" nested
    let opening ← node .jsxOpeningElement start parts
    return ← node .jsxElement start [opening]
  closeJsx ">" true
  let opening ← node .jsxOpeningElement start parts
  let (children, closeStart) ← jsxChildren g
  let closeName ← jsxElementName
  faultIf (jsxNames name != jsxNames closeName)
  closeJsx ">" nested
  let closing ← node .jsxClosingElement closeStart [closeName]
  node .jsxElement start (opening :: (children ++ [closing]))

end ComponentScan.Syntax
