import ComponentScan.Syntax.Node

/-!
# Symbols

A symbol is what a name stands for in a scope. All declarations of a name in one scope make one
symbol, which is at the place of the first of them and can mean what each of them declares. A
reference looks outwards through the scopes for a symbol of its name that can mean what the
reference is used for.
-/

namespace ComponentScan.Scope

/-- What a declaration makes of a name. -/
inductive Meaning
  | variableName | functionName | className | enumName | memberName
  | importName | typeImportName
  /-- A namespace; `namespaceValue` is added if it holds more than types. -/
  | namespaceName | namespaceValue
  | interfaceName | aliasName | typeParameterName
  deriving Repr, DecidableEq, Inhabited

/-- What a reference is used for. -/
inductive Use
  | value | type
  /-- The type of a value. -/
  | query
  /-- The left side of a qualified name of a type. -/
  | qualifier
  /-- An export of values and types alike. -/
  | either
  deriving Repr, DecidableEq, Inhabited

namespace Meaning

def isValue : Meaning → Bool
  | variableName | functionName | className | enumName | memberName | importName
  | namespaceValue => true
  | _ => false

def isType : Meaning → Bool
  | className | interfaceName | enumName | typeParameterName | aliasName | namespaceName
  | namespaceValue | importName | typeImportName => true
  | _ => false

/-- Whether a name of this meaning can have members that are types. -/
def isQualifier : Meaning → Bool
  | namespaceName | namespaceValue | enumName | importName | typeImportName => true
  | _ => false

end Meaning

/-- Whether a use can be of a meaning. -/
def Use.accepts (use : Use) (m : Meaning) : Bool :=
  match use with
  | value => m.isValue
  | type => m.isType
  | query => m.isValue || m == .typeImportName
  | qualifier => m.isQualifier
  | either => m.isValue || m.isType

/-- One declaration of a name. -/
structure Binding where
  name : String
  span : Span
  meanings : List Meaning
  /-- Whether blocks around the declaration do not confine it. -/
  hoists : Bool := false
  deriving Inhabited

structure Symbol where
  name : String
  /-- The place of the first identifier that declares it. -/
  span : Span
  meanings : List Meaning
  deriving Inhabited

/-- The symbols of a scope, the first declared first. -/
abbrev Symbols := List Symbol

/-- The scopes around a place, the innermost first. -/
abbrev Scopes := List Symbols

namespace Symbols

/-- The symbol of a name. -/
def find? (symbols : Symbols) (name : String) : Option Symbol :=
  List.find? (·.name == name) symbols

/-- Adds a declaration to the symbol of its name, or as a new symbol. -/
def declare : Symbols → Binding → Symbols
  | [], b => [⟨b.name, b.span, b.meanings⟩]
  | s :: rest, b =>
    if s.name == b.name then { s with meanings := s.meanings ++ b.meanings } :: rest
    else s :: declare rest b

/-- The symbols that some declarations make. -/
def ofBindings (bindings : List Binding) : Symbols :=
  bindings.foldl declare []

end Symbols

namespace Scopes

/-- The symbol that a use of a name refers to. -/
def lookup? (scopes : Scopes) (use : Use) (name : String) : Option Symbol :=
  scopes.findSome? fun symbols =>
    List.find? (fun s => s.name == name && s.meanings.any use.accepts) symbols

/-- The innermost symbol of a name. -/
def bound? (scopes : Scopes) (name : String) : Option Symbol :=
  scopes.findSome? fun symbols => symbols.find? name

end Scopes

end ComponentScan.Scope
