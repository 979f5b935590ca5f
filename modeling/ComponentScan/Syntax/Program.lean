import ComponentScan.Syntax.Grammar.Statement

/-!
# Programs

The grammar as a whole: its rules refer to each other, and the depth of nesting, which the length of
the text bounds, makes the recursion end. A text is a program if it can be parsed to its end without
a fault.
-/

namespace ComponentScan.Syntax

open Parse

/-- The parser of each nonterminal, given parsers for those inside it. -/
def rules (g : Rules) : Rules
  | .statement place => statementRule g place
  | .expression => expressionRule g
  | .assignment arrowReturn => assignmentRule g arrowReturn
  | .binary above => binaryRule g above
  | .unary => unaryRule g
  | .leftHandSide => leftHandSideRule g
  | .constructed => constructedRule g
  | .type => typeRule g
  | .typeOperator => operatorType g
  | .binding => bindingTarget g
  | .jsxElement nested => jsxElementRule g nested

/-- The parser of a nonterminal that looks into at most `depth` others around each other. -/
def parseRule (depth : Nat) (n : Nonterminal) (ctx : Context) (s : State) :
    Option (Node × State) :=
  match depth with
  | 0 => none
  | depth + 1 => rules (fun n ctx s => parseRule depth n ctx s) n ctx s

/-- The line that tells a system which program runs a file. -/
def hashbang? (c : Cursor) : Option (Node × Cursor) :=
  if c.startsWith ['#', '!'] then
    let stop := c.skipWhile (!isLineBreak ·)
    some (⟨.hashbang, ⟨c.pos, stop.pos⟩, []⟩, stop)
  else none

/-- The text after a byte order mark. -/
def skipByteOrderMark (c : Cursor) : Cursor :=
  if c.peek? == some (Char.ofNat 0xFEFF) then c.next else c

/-- The state in front of the first token. -/
def State.first (size : Nat) (c : Cursor) : State :=
  let start : State :=
    { token := { kind := .eof, start := 0, stop := 0, newlineBefore := false, escaped := false }
      here := c
      after := c }
  let trivia : Trivia := { onFreshLine := true, holdsLineComments := false }
  match skipTrivia size trivia c with
  | none => start.load c true (.none c)
  | some (trivia, place) =>
    { start.load place trivia.newline (lex size place) with
      comments := .addAll .empty place.pos trivia.pending }

/-- A program and the comments that lead its tokens. -/
structure Program where
  root : Node
  /-- Where the token starts that a comment leads, and where the comment is, in order. -/
  comments : List (Nat × Span)
  deriving Inhabited

namespace Program

/-- How deep rules can be nested in a text of a size; between two nestings at most a few dozen rules
refer to each other without taking a token. -/
def depthOf (size : Nat) : Nat :=
  64 * size + 64

/-- Reads a text as a program, in a context. -/
def parseIn (ctx : Context) (chars : List Char) : Option (Program × State) := do
  let c := skipByteOrderMark ⟨chars, 0⟩
  let (hashbang, c) := match hashbang? c with
    | some (n, c) => (some n, c)
    | none => (none, c)
  let body := statements (parseRule (depthOf ctx.size))
  let (body, s) ← body ctx (State.first ctx.size c)
  if s.token.kind != .eof || s.faulty || Node.hasStrayDefault.anyStray body then none
  let span : Span := ⟨0, s.token.stop⟩
  some (⟨⟨.program, span, hashbang.toList ++ markDirectives body⟩, s.comments.entries.reverse⟩, s)

/-- The context at the start of a file. -/
def contextOf (dialect : Dialect) (size : Nat) : Context :=
  { dialect, size
    allowAwait := dialect.goal == .module
    allowReturn := dialect.goal == .commonJs
    ambient := dialect.declarationFile }

/-- The size of the longest text that is read: places of more bytes have no number of 32 bits. -/
def maxBytes : Nat := 4294967295

/-- Reads characters as a program. A file that turns out to be a module is read again as one. -/
def parseText (dialect : Dialect) (chars : List Char) : Option Program := do
  if Text.byteLength chars > maxBytes then none
  let ctx := contextOf dialect (chars.length + 8)
  let (program, s) ← parseIn ctx chars
  if dialect.goal == .detected && s.isModule then
    let (program, _) ← parseIn { ctx with allowAwait := true } chars
    return program
  else return program

/-- Reads a text as a program. -/
def parse (dialect : Dialect) (text : String) : Option Program :=
  parseText dialect text.toList

end Program

end ComponentScan.Syntax
