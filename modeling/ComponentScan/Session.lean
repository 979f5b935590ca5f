import ComponentScan.DocComment
import ComponentScan.LineIndex
import ComponentScan.Report.Basic
import ComponentScan.Scope.Resolve
import ComponentScan.Syntax.Program

/-!
# Sessions

A session is a parsed file with what the detectors ask about it: the text and the lines of a node,
the symbol that an identifier names, and the documentation comments that lead the token at an
offset.
-/

namespace ComponentScan

open Syntax Scope

structure Session where
  path : String
  source : List Char
  root : Node
  /-- The symbols of identifiers, by the start of the identifier. -/
  symbols : List (Nat × Symbol)
  lines : LineIndex
  /-- The documentation comments in order, by the start of the token that they lead. -/
  docs : List (Nat × DocComment)
  deriving Inhabited

namespace Session

/-- The session of a program that is read from a text. -/
def ofProgram (path : String) (text : List Char) (p : Program) : Session where
  path := path
  source := text
  root := p.root
  symbols := resolveProgram p.root
  lines := .ofText text
  docs := p.comments.filterMap fun (token, comment) =>
    (DocComment.spanOf? text comment).map fun span => (token, DocComment.parse text span)

/-- Parses the characters of a file. -/
def ofText (path : String) (text : List Char) : Except ScanError Session :=
  match Program.parseText (.ofPath path) text with
  | none => .error (.unparsable path)
  | some p => .ok (ofProgram path text p)

/-- Parses a file. -/
def ofSource (path source : String) : Except ScanError Session :=
  ofText path source.toList

/-! ## Text and place -/

/-- The text at a span. -/
def textAt (s : Session) (span : Span) : List Char :=
  (Text.slice? s.source span.start span.stop).getD []

/-- The text of a node. -/
def print (s : Session) (n : Node) : String :=
  String.ofList (s.textAt n.span)

/-- The text of a node without white space. -/
def printCompact (s : Session) (n : Node) : String :=
  String.ofList (Text.compact (s.textAt n.span))

/-- The lines of a span. -/
def location (s : Session) (span : Span) : SourceLocation :=
  let (first, last) := s.lines.linesOf span
  .ofLines s.path first last

/-- The documentation comments that lead the token at an offset. -/
def docsAt (s : Session) (offset : Nat) : List DocComment :=
  s.docs.filterMap fun (token, doc) => if token == offset then some doc else none

/-! ## Symbols -/

/-- The symbol that a node names: only identifiers that are bound or refer to something name one. -/
def symbolAt? (s : Session) (n : Node) : Option Symbol :=
  match n.kind with
  | .bindingIdentifier name | .identifierReference name =>
    (s.symbols.find? fun (start, symbol) => start == n.start && symbol.name == name).map (·.2)
  | _ => none

/-- Where the first identifier stands that declares a symbol. -/
def symbolLocation (s : Session) (symbol : Symbol) : SourceLocation :=
  s.location symbol.span

/-! ## Descriptions -/

/-- The place of the parameters and the return type of a function. -/
def signatureSpan? (f : Node) : Option Span := do
  let params ← f.child? Kind.isFormalParameters
  let start := ((f.child? Kind.isTypeParameters).map Node.start).getD params.start
  let stop := ((f.child? Kind.isTypeAscription).map Node.stop).getD params.stop
  return ⟨start, stop⟩

/-- The place of the signature of a function as an expression. -/
def expressionSignatureSpan? (e : Node) : Option Span :=
  match e.kind with
  | .arrowFunctionExpression | .function _ => signatureSpan? e
  | _ => none

/-- The place of what a declaration says about its type: parameters and return type of a function,
the header of a class. -/
def typeSpan? (n : Node) : Option Span :=
  match n.kind with
  | .function _ => signatureSpan? n
  | .variableDeclarator => n.initializer?.bind expressionSignatureSpan?
  | .methodDefinition .. => n.memberValue?.bind signatureSpan?
  | .propertyDefinition _ => n.memberValue?.bind expressionSignatureSpan?
  | .classNode _ => (n.child? Kind.isClassBody).map fun body => ⟨n.start, body.start⟩
  | _ => none

/-- What a declaration says about its type, with single spaces between words. -/
def typeSignature? (s : Session) (n : Node) : Option String := do
  let text := Text.singleSpaced (s.textAt (← typeSpan? n))
  if text.isEmpty then none else some (String.ofList text)

/-- The descriptions of the documentation comments at an offset. -/
def documentationAt (s : Session) (offset : Nat) : String :=
  let texts := (s.docsAt offset).map (·.description)
  String.intercalate "\n\n" (texts.filter (!·.isEmpty))

/-- The description of a declaration, whose documentation is at an offset. -/
def describe (s : Session) (name : String) (declaration : Node) (docAnchor : Nat) :
    SymbolDescriptor where
  path := s.path
  sourceLocation := s.location declaration.span
  name := name
  documentation := s.documentationAt docAnchor
  typeSignature := s.typeSignature? declaration

end Session

end ComponentScan
