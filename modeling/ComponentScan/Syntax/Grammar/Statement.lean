import ComponentScan.Syntax.Grammar.Module

/-!
# Statements
-/

namespace ComponentScan.Syntax

open Parse

/-- The statement that a loop or condition governs. -/
def governed (g : Rules) : Parse Node :=
  g (.statement .single)

/-- An expression in parentheses that are not part of it. -/
def headExpression (g : Rules) : Parse Node := do
  expect "("
  let e ← enclosed (g .expression)
  expect ")"
  return e

def blockStatement (g : Rules) : Parse Node := do
  let start ← here
  expect "\x7b"
  let body ← statements g
  expect "\x7d"
  node .blockStatement start body

def emptyStatement : Parse Node :=
  leaf .emptyStatement

def ifStatement (g : Rules) : Parse Node := do
  let start ← here
  expectWord "if"
  let test ← headExpression g
  let consequent ← governed g
  let alternate ← if ← eatWord "else" then some <$> governed g else pure none
  node .ifStatement start (test :: consequent :: alternate.toList)

/-! ## Loops -/

/-- A loop whose test comes last; its semicolon may be left out before anything. -/
def doWhileStatement (g : Rules) : Parse Node := do
  let start ← here
  expectWord "do"
  let body ← governed g
  expectWord "while"
  let test ← headExpression g
  let _ ← eat ";"
  node .doWhileStatement start [body, test]

def whileStatement (g : Rules) : Parse Node := do
  let start ← here
  expectWord "while"
  let test ← headExpression g
  node .whileStatement start [test, ← governed g]

/-- The rest of a loop with a test and an update. -/
def classicLoop (g : Rules) (start : Nat) (first : Option Node) : Parse Node := do
  expect ";"
  let test ← if ← atSymbol ";" then pure none else some <$> enclosed (g .expression)
  expect ";"
  let update ← if ← atSymbol ")" then pure none else some <$> enclosed (g .expression)
  expect ")"
  let body ← governed g
  node .forStatement start (first.toList ++ test.toList ++ update.toList ++ [body])

/-- The rest of a loop over keys or values, or of a classic one, after its first part; `target?`
makes this part a target. -/
def loopRest (g : Rules) (start : Nat) (awaits : Bool) (first : Node) (target : Option Node) :
    Parse Node := do
  let through (kind : Kind) (source : Parse Node) : Parse Node := do
    advance
    match target with
    | none => reject
    | some target =>
      let source ← enclosed source
      expect ")"
      node kind start [target, source, ← governed g]
  if ← atWord "of" then through .forOfStatement (g (.assignment true))
  else if (← atWord "in") && !awaits then through .forInStatement (g .expression)
  else if awaits then reject
  else classicLoop g start (some first)

/-- Whether variables are declared in the head of a loop. -/
def atLoopVariables : Parse Bool := do
  if (← atWord "var") || (← atWord "const") then return true
  if ← atWord "let" then
    nextIs do return (← atIdentifier) || (← atSymbolOf ["[", "\x7b"])
  else if ← atUsing then return true
  else atAwaitUsing

/-- Variables in a classic loop have what they need. -/
def checkLoopVariables (n : Node) : Parse Unit :=
  match n.kind with
  | .variableDeclaration binder =>
    faultIf <| n.children.any fun v =>
      v.initializer?.isNone && (v.binding?.any (needsInitializer binder))
  | _ => pure ()

/-- A loop with its head in parentheses. -/
def forStatement (g : Rules) : Parse Node := do
  let start ← here
  expectWord "for"
  let awaits ← eatWord "await"
  if awaits then noteAwait
  expect "("
  if ← atSymbol ";" then
    faultIf awaits
    return ← classicLoop g start none
  if ← atLoopVariables then
    let declStart ← here
    let _ ← if ← atAwaitUsing then advance else pure ()
    let n ← within ({ · with allowIn := false }) (variableDeclaration g declStart true)
    if ← atSymbol ";" then checkLoopVariables n
    loopRest g start awaits n (some n)
  else
    let startsWithLet ← atWord "let"
    let startsWithAsync ← if ← atWord "async" then nextIs (atWord "of") else pure false
    let e ← within ({ · with allowIn := false }) (g .expression)
    faultIf ((startsWithLet || (startsWithAsync && !awaits)) && (← atWord "of"))
    loopRest g start awaits e e.asTarget?

/-! ## Jumps -/

/-- A jump to a label, which stands on its line. -/
def jumpStatement (kind : Kind) : Parse Node := do
  let start ← here
  advance
  let label ← if ← canEndStatement then pure none else some <$> labelIdentifier
  endStatement
  node kind start label.toList

def returnStatement (g : Rules) : Parse Node := do
  let start ← here
  advance
  faultIf !(← read).allowReturn
  let value ← if ← canEndStatement then pure none else some <$> g .expression
  endStatement
  node .returnStatement start value.toList

/-- The thrown value stands on the line of its keyword. -/
def throwStatement (g : Rules) : Parse Node := do
  let start ← here
  advance
  faultIf (← onNewLine)
  let value ← g .expression
  endStatement
  node .throwStatement start [value]

/-! ## Other statements -/

def withStatement (g : Rules) : Parse Node := do
  let start ← here
  expectWord "with"
  let object ← headExpression g
  node .withStatement start [object, ← governed g]

/-- A case of a switch with its statements. -/
def switchCase (g : Rules) : Parse Node := do
  let start ← here
  let test ←
    if ← eatWord "default" then pure none
    else
      expectWord "case"
      some <$> g .expression
  expect ":"
  let body ← many do
    if (← atWord "case") || (← atWord "default") || (← atSymbol "\x7d") || (← atEnd) then
      return none
    some <$> g (.statement .list)
  node .switchCase start (test.toList ++ body)

def switchStatement (g : Rules) : Parse Node := do
  let start ← here
  expectWord "switch"
  let value ← headExpression g
  expect "\x7b"
  let cases ← many do
    if ← atSymbol "\x7d" then return none
    some <$> switchCase g
  expect "\x7d"
  node .switchStatement start (value :: cases)

/-- What a handler binds. -/
def catchParameter (g : Rules) : Parse Node := do
  expect "("
  let start ← here
  let target ← g .binding
  let type ← typeAscription? g
  let n ← node .catchParameter start (target :: type.toList)
  expect ")"
  return n

def catchClause (g : Rules) : Parse Node := do
  let start ← here
  expectWord "catch"
  let param ← if ← atSymbol "(" then some <$> catchParameter g else pure none
  let body ← blockStatement g
  node .catchClause start (param.toList ++ [body])

/-- A block with a handler or a final block. -/
def tryStatement (g : Rules) : Parse Node := do
  let start ← here
  expectWord "try"
  let block ← blockStatement g
  let handler ← if ← atWord "catch" then some <$> catchClause g else pure none
  let finalizer ← if ← eatWord "finally" then some <$> blockStatement g else pure none
  faultIf (handler.isNone && finalizer.isNone)
  node .tryStatement start (block :: handler.toList ++ finalizer.toList)

def debuggerStatement : Parse Node := do
  let start ← here
  advance
  endStatement
  node .debuggerStatement start []

/-- An expression as a statement, or a label and what it stands before. -/
def expressionStatement (g : Rules) : Parse Node := do
  let start ← here
  let e ← g .expression
  match e.kind with
  | .identifierReference name =>
    if ← eat ":" then
      let body ← g (.statement .label)
      return ← node .labeledStatement start [⟨.labelIdentifier name, e.span, []⟩, body]
  | _ => pure ()
  endStatement
  node .expressionStatement start [e]

/-- A class or export with decorators before it. -/
def decoratedStatement (g : Rules) : Parse Node := do
  let start ← here
  let decos ← decorators g
  if ← atWord "export" then exportDeclaration g decos
  else decoratedClass g start true decos

/-- Whether variables are declared by the word `let` here, which may be a name as well. -/
def atLet (place : StatementPlace) : Parse Bool := do
  if !(← atWord "let") then return false
  nextIs do
    let t ← token
    match t.kind with
    | .symbol s =>
      if assignmentOperators.contains s || (binaryPrecedence? t).isSome then return false
      if [".", "(", ";"].contains s then return false
      return place == .list || s == "["
    | .word "in" | .word "instanceof" => return false
    | _ => return place == .list

/-- Whether a declaration with a word that is no reserved one starts here. -/
def atTypeDeclaration : Parse Bool := do
  if !(← read).dialect.typescript then return false
  if ← atWordOf ("enum" :: "interface" :: "type" :: "module" :: "namespace" :: "global" ::
      declarationModifiers) then
    atDeclaration
  else return false

/-- Whether an import statement starts here and no import inside an expression. -/
def atImportStatement : Parse Bool := do
  if ← atWord "import" then
    nextIs do return !(← atSymbol "(") && !(← atSymbol ".")
  else return false

/-- A statement that starts with a word which may also be a name. -/
def softStatement (g : Rules) (place : StatementPlace) : Parse Node := do
  let start ← here
  if ← atLet place then return ← variableStatement g start
  if ← atAsyncFunction then return ← functionStatement g start place
  if ← atTypeDeclaration then return ← declaration g start place
  if ← atImportStatement then return ← importDeclaration
  if ← atUsing then return ← variableStatement g start
  if ← atAwaitUsing then
    noteAwait
    advance
    return ← variableStatement g start
  expressionStatement g

/-- A statement that starts with a word. -/
def wordStatement (g : Rules) (place : StatementPlace) (word : String) : Parse Node := do
  let start ← here
  match word with
  | "if" => ifStatement g
  | "do" => doWhileStatement g
  | "while" => whileStatement g
  | "for" => forStatement g
  | "continue" => jumpStatement .continueStatement
  | "break" => jumpStatement .breakStatement
  | "return" => returnStatement g
  | "with" => withStatement g
  | "switch" => switchStatement g
  | "throw" => throwStatement g
  | "try" => tryStatement g
  | "debugger" => debuggerStatement
  | "var" => variableStatement g start
  | "const" =>
    faultIf (place != .list)
    bareDeclaration g start place
  | "function" | "class" => bareDeclaration g start place
  | "export" => exportDeclaration g []
  | _ => softStatement g place

/-- A statement. -/
def statementRule (g : Rules) (place : StatementPlace) : Parse Node := do
  let t ← token
  match t.kind with
  | .symbol "\x7b" => blockStatement g
  | .symbol ";" => emptyStatement
  | .symbol "@" => decoratedStatement g
  | .word word => if t.escaped then expressionStatement g else wordStatement g place word
  | _ => expressionStatement g

end ComponentScan.Syntax
