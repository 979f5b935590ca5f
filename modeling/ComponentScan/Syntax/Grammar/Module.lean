import ComponentScan.Syntax.Grammar.Declaration

/-!
# Imports and exports
-/

namespace ComponentScan.Syntax

open Parse

/-- Takes note that the file is a module; some files may not be one. -/
def noteModule : Parse Unit := do
  faultIf ((← read).dialect.goal == .commonJs)
  modify fun s => { s with isModule := true }

/-! ## Parts -/

/-- An attribute of an import. -/
def importAttribute : Parse Node := do
  let start ← here
  let key ← if ← atString then stringLiteral else identifierName
  expect ":"
  let value ← stringLiteral
  node .importAttribute start [key, value]

/-- The attributes of an import between braces, without the word before them. -/
def withClause? : Parse (Option Node) := do
  let asserts := (← atWord "assert") && !(← onNewLine)
  if asserts || (← atWord "with") then
    advance
    let start ← here
    expect "\x7b"
    let entries ← separated "," "\x7d" importAttribute
    expect "\x7d"
    return some (← node .withClause start entries)
  else return none

/-- The module after `from`, with its attributes. -/
def fromClause : Parse (List Node) := do
  expectWord "from"
  let source ← stringLiteral
  let clause ← withClause?
  return source :: clause.toList

/-- A name that a module exports, which may be a string. -/
def exportedName : Parse Node := do
  if ← atString then stringLiteral else identifierName

/-- Whether a name that a module exports stands here. -/
def atExportedName : Parse Bool :=
  return (← atName) || (← atString)

/-- The names in a specifier: the one in the other module or scope, the one that it is given, if
any, and whether the specifier is only about types. The words `type` and `as` may also be names. -/
def specifierNames : Parse (Node × Option Node × Bool) := do
  let isType ← atWord "type"
  let first ← exportedName
  if isType && (← atWord "as") then
    let firstAs ← identifierName
    if ← atWord "as" then
      let secondAs ← identifierName
      if ← atExportedName then return (firstAs, some (← exportedName), true)
      else return (first, some secondAs, false)
    else if ← atExportedName then return (first, some (← exportedName), false)
    else return (firstAs, none, true)
  let (name, typeOnly) ←
    if isType && (← atExportedName) then pure (← exportedName, true) else pure (first, false)
  let given ← if ← eatWord "as" then some <$> exportedName else pure none
  return (name, given, typeOnly)

/-- A name of an imported thing in this file. -/
def localName (n : Node) : Parse Node := do
  match n.kind with
  | .identifierName name =>
    faultIf (reservedWords.contains name)
    return { n with kind := .bindingIdentifier name }
  | _ => reject

/-- A name of this file that is exported. -/
def exportedReference (n : Node) : Parse Node := do
  match n.kind with
  | .identifierName name =>
    faultIf (reservedWords.contains name)
    return { n with kind := .identifierReference name }
  | _ =>
    fault
    return n

/-! ## Imports -/

def importSpecifier : Parse Node := do
  let start ← here
  let (imported, given, typeOnly) ← specifierNames
  let name ← localName (given.getD imported)
  faultIf (typeOnly && !(← read).dialect.typescript)
  node (.importSpecifier typeOnly) start [imported, name]

/-- The names that are imported besides a default, if there are any. -/
def importedNames : Parse (List Node) := do
  if ← atSymbol "*" then
    let start ← here
    advance
    expectWord "as"
    let name ← bindingIdentifier
    return [← node .importNamespaceSpecifier start [name]]
  else
    expect "\x7b"
    let specifiers ← separated "," "\x7d" importSpecifier
    expect "\x7d"
    return specifiers

/-- What follows an imported default. -/
def importRest (start : Nat) (typeOnly : Bool) (default : Option Node) : Parse Node := do
  let first := default.map fun n => ⟨.importDefaultSpecifier, n.span, [n]⟩
  let others ←
    if default.isNone then importedNames
    else if ← eat "," then importedNames
    else pure []
  faultIf (typeOnly && default.isSome && !others.isEmpty)
  let source ← fromClause
  endStatement
  node (.importDeclaration typeOnly) start (first.toList ++ others ++ source)

/-- Whether the word `type` here says that types are imported and is no name itself. -/
def atImportedTypes : Parse Bool := do
  if !(← read).dialect.typescript || !(← atWord "type") then return false
  nextIs do
    if ← atSymbolOf ["*", "\x7b"] then return true
    if !(← atIdentifier) then return false
    if ← atWord "from" then nextIs do return (← atWord "from") || (← atSymbol "=")
    else return true

/-- Whether the word here is the phase of an import and no name itself. -/
def atPhase : Parse Bool := do
  if ← atWord "defer" then nextIs (atSymbol "*")
  else if ← atWord "source" then
    nextIs do
      if ← atWord "from" then nextIs (atWord "from") else atIdentifier
  else return false

/-- An import statement. -/
def importDeclaration : Parse Node := do
  let start ← here
  expectWord "import"
  if ← atString then
    noteModule
    let source ← stringLiteral
    let clause ← withClause?
    endStatement
    return ← node (.importDeclaration false) start (source :: clause.toList)
  if ← atPhase then advance
  let typeOnly ← atImportedTypes
  if typeOnly then advance
  if !(← atIdentifier) then
    noteModule
    return ← importRest start typeOnly none
  let id ← bindingIdentifier
  if (← read).dialect.typescript && (← atSymbol "=") then
    return ← importEqualsRest start typeOnly id
  noteModule
  importRest start typeOnly (some id)

/-! ## Exports -/

/-- Names of this file or of another one that are exported. -/
def exportNames (start : Nat) (typeOnly : Bool) : Parse Node := do
  expect "\x7b"
  let specifiers ← many do
    if ← atSymbol "\x7d" then return none
    let specStart ← here
    let (name, given, isType) ← specifierNames
    faultIf (isType && !(← read).dialect.typescript)
    let spec ← node (.exportSpecifier isType) specStart [name, given.getD name]
    if !(← atSymbol "\x7d") then expect ","
    return some spec
  expect "\x7d"
  if ← atWord "from" then
    let source ← fromClause
    endStatement
    node (.exportNamedDeclaration typeOnly) start (specifiers ++ source)
  else
    let specifiers ← specifiers.mapM fun spec =>
      match spec.children with
      | [name, given] => return { spec with children := [← exportedReference name, given] }
      | _ => return spec
    endStatement
    node (.exportNamedDeclaration typeOnly) start specifiers

/-- All names of another module, under one name or as they are. -/
def exportAll (start : Nat) : Parse Node := do
  expect "*"
  let name ← if ← eatWord "as" then some <$> exportedName else pure none
  let source ← fromClause
  endStatement
  node .exportAllDeclaration start (name.toList ++ source)

/-- What a module exports by default. -/
def exportDefault (g : Rules) (start : Nat) (decos : List Node) : Parse Node := do
  expectWord "default"
  let bodyStart ← here
  let ts := (← read).dialect.typescript
  let own ← decorators g
  let abstracts ← if ts && (← atWord "abstract") then nextIs (atWord "class") else pure false
  let declared ← if ts && (← atWord "interface") then
      nextIs do return (← atIdentifier) && !(← onNewLine)
    else pure false
  let body ←
    if abstracts || (← atWord "class") then decoratedClass g bodyStart false (decos ++ own)
    else if (← atWord "function") || (← atAsyncFunction) then
      let (f, _) ← functionDeclaration g bodyStart false
      pure f
    else if declared then interfaceDeclaration g bodyStart
    else
      let e ← g (.assignment true)
      endStatement
      pure e
  node .exportDefaultDeclaration start [body]

/-- A declaration that is exported. -/
def exportedDeclaration (g : Rules) (start : Nat) (decos : List Node) : Parse Node := do
  let bodyStart ← here
  let own ← decorators g
  let n ←
    if !(decos ++ own).isEmpty then decoratedClass g bodyStart true (decos ++ own)
    else if (← read).dialect.typescript then declaration g bodyStart .list
    else bareDeclaration g bodyStart .list
  node (.exportNamedDeclaration false) start [n]

/-- An export statement; `decos` stand before its class. -/
def exportDeclaration (g : Rules) (decos : List Node) : Parse Node := do
  let start ← here
  let ts := (← read).dialect.typescript
  expectWord "export"
  noteModule
  match (← token).kind with
  | .symbol "\x7b" => exportNames start false
  | .symbol "*" => exportAll start
  | .symbol "=" =>
    if !ts then reject
    advance
    let e ← g .expression
    endStatement
    node .tsExportAssignment start [e]
  | .word "default" => exportDefault g start decos
  | .word "as" =>
    if !ts then reject
    advance
    expectWord "namespace"
    let name ← identifierName
    endStatement
    node .tsNamespaceExportDeclaration start [name]
  | .word "type" =>
    if ts && (← nextIs (atSymbol "\x7b")) then
      advance
      exportNames start true
    else if ts && (← nextIs (atSymbol "*")) then
      advance
      exportAll start
    else exportedDeclaration g start decos
  | _ => exportedDeclaration g start decos

end ComponentScan.Syntax
