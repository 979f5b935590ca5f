import ComponentScan.Syntax.Grammar.Rules

/-!
# Names, keys and templates
-/

namespace ComponentScan.Syntax

open Parse

/-- The words that never are identifiers. -/
def reservedWords : List String :=
  ["break", "case", "catch", "class", "const", "continue", "debugger", "default", "delete", "do",
    "else", "enum", "export", "extends", "false", "finally", "for", "function", "if", "import", "in",
    "instanceof", "new", "null", "return", "super", "switch", "this", "throw", "true", "try",
    "typeof", "var", "void", "while", "with"]

/-- A word that may be an identifier. -/
def TokenKind.isIdentifier : TokenKind → Bool
  | .word name => !reservedWords.contains name
  | _ => false

/-- Any word. -/
def TokenKind.isName : TokenKind → Bool
  | .word _ => true
  | _ => false

def atIdentifier : Parse Bool :=
  return (← token).kind.isIdentifier

def atName : Parse Bool :=
  return (← token).kind.isName

def atString : Parse Bool := do
  match (← token).kind with
  | .string _ => return true
  | _ => return false

/-- A number or bigint. -/
def atNumber : Parse Bool := do
  match (← token).kind with
  | .number | .bigint => return true
  | _ => return false

/-- An identifier, made a node by `kind`. The words of operators are no identifiers where the
operators are allowed. -/
def identifier (kind : String → Kind) : Parse Node := do
  let ctx ← read
  match (← token).kind with
  | .word name =>
    if reservedWords.contains name then reject
    faultIf (ctx.allowAwait && name == "await")
    faultIf (ctx.allowYield && name == "yield")
    leaf (kind name)
  | _ => reject

def bindingIdentifier : Parse Node :=
  identifier .bindingIdentifier

def identifierReference : Parse Node :=
  identifier .identifierReference

def labelIdentifier : Parse Node :=
  identifier .labelIdentifier

/-- Any word, as a name. -/
def identifierName : Parse Node := do
  match (← token).kind with
  | .word name => leaf (.identifierName name)
  | _ => reject

def privateIdentifier : Parse Node := do
  match (← token).kind with
  | .privateName name => leaf (.privateIdentifier name)
  | _ => reject

def stringLiteral : Parse Node := do
  match (← token).kind with
  | .string value => leaf (.stringLiteral value)
  | _ => reject

def numericLiteral : Parse Node := do
  match (← token).kind with
  | .number => leaf .numericLiteral
  | .bigint => leaf .bigIntLiteral
  | _ => reject

/-- Runs a parser for what stands between brackets, where operators are not restricted. -/
def enclosed {α : Type} (p : Parse α) : Parse α :=
  within ({ · with allowIn := true, inDecorator := false }) p

/-- A computed key between brackets. -/
def computedKey (g : Rules) : Parse Node := do
  expect "["
  let key ← enclosed (g (.assignment true))
  expect "]"
  return key

/-- The key of a property or member, and whether it is computed. -/
def propertyName (g : Rules) : Parse (Node × Bool) := do
  match (← token).kind with
  | .symbol "[" => return (← computedKey g, true)
  | .string _ => return (← stringLiteral, false)
  | .number | .bigint => return (← numericLiteral, false)
  | .privateName _ => return (← privateIdentifier, false)
  | _ => return (← identifierName, false)

/-! ## Templates -/

/-- A piece of a template, which may have escapes without a value only behind a tag. -/
def templateElement (tagged : Bool) : Parse (Node × Bool) := do
  let t ← token
  match t.kind with
  | .template closes cooked =>
    faultIf (!tagged && !cooked)
    advance
    let stop := t.stop - if closes then 1 else 2
    return (⟨.templateElement, ⟨t.start + 1, stop⟩, []⟩, closes)
  | _ => reject

/-- Goes on with a template after a substitution. -/
def resumeTemplate : Parse Unit := do
  if ← atSymbol "\x7d" then reread (lexTemplate (← read).size) else reject

/-- A template of the given kind with substitutions that `item` reads; its pieces come before its
substitutions. -/
def template (kind : Kind) (item : Parse Node) (tagged : Bool) : Parse Node := do
  let start ← here
  let (first, closed) ← templateElement tagged
  let (pieces, items, _) ← loop ([first], [], closed) fun (pieces, items, closed) => do
    if closed then return none
    let n ← item
    resumeTemplate
    let (piece, closed) ← templateElement tagged
    return some (piece :: pieces, n :: items, closed)
  node kind start (pieces.reverse ++ items.reverse)

def templateLiteral (g : Rules) (tagged : Bool) : Parse Node :=
  template .templateLiteral (enclosed (g .expression)) tagged

/-! ## Type annotations -/

/-- The type after a colon, if types are part of the language and there is one. -/
def typeAscription? (g : Rules) : Parse (Option Node) := do
  let start ← here
  if (← read).dialect.typescript && (← atSymbol ":") then
    advance
    let t ← within ({ · with allowConditionalTypes := true }) (g .type)
    return some (← node .tsTypeAscription start [t])
  else return none

end ComponentScan.Syntax
