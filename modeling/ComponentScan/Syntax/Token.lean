import ComponentScan.Text.Bytes

/-!
# Tokens

The words, signs and literals of a program. Which token starts at a place may depend on the
grammar: a slash may start a regular expression, a closing brace may go on with a template, and the
text between JSX tags is one token. The lexer reads the plain token of a place, and the grammar asks
for the other ones where it expects them.
-/

namespace ComponentScan.Syntax

inductive TokenKind
  | eof
  /-- An identifier or keyword, decoded. -/
  | word (name : String)
  | privateName (name : String)
  /-- A punctuator. A closing angle bracket is always a token of its own. -/
  | symbol (text : String)
  | number
  | bigint
  | string (value : String)
  /-- A piece of a template: whether it closes the template, and whether its escapes are valid. -/
  | template (closes cooked : Bool)
  | regex
  | jsxText
  /-- Text that is no token. -/
  | invalid
  deriving Repr, DecidableEq, Inhabited

/-- A token with its place. -/
structure Token where
  kind : TokenKind
  start : Nat
  stop : Nat
  /-- Whether a line break stands before it. -/
  newlineBefore : Bool
  /-- Whether a word is written with an escape. -/
  escaped : Bool
  deriving Repr, Inhabited

namespace Token

def isSymbol (t : Token) (text : String) : Bool :=
  match t.kind with
  | .symbol s => s == text
  | _ => false

/-- A keyword has no escapes. -/
def isWord (t : Token) (name : String) : Bool :=
  match t.kind with
  | .word s => s == name && !t.escaped
  | _ => false

end Token

/-- The rest of a text and its byte offset. -/
structure Cursor where
  rest : List Char
  pos : Nat
  deriving Inhabited

namespace Cursor

/-- Moves past the first character. -/
def next (c : Cursor) : Cursor :=
  match c.rest with
  | [] => c
  | x :: r => ⟨r, c.pos + x.utf8Size⟩

/-- Moves past `n` characters. -/
def skip : Nat → Cursor → Cursor
  | 0, c => c
  | n + 1, c => skip n c.next

/-- Moves on while `p` holds, from a text at an offset. -/
def skipWhileFrom (p : Char → Bool) : List Char → Nat → Cursor
  | [], pos => ⟨[], pos⟩
  | x :: r, pos => if p x then skipWhileFrom p r (pos + x.utf8Size) else ⟨x :: r, pos⟩

/-- Moves on while `p` holds. -/
def skipWhile (p : Char → Bool) (c : Cursor) : Cursor :=
  skipWhileFrom p c.rest c.pos

/-- The next character. -/
def peek? (c : Cursor) : Option Char :=
  c.rest.head?

/-- Whether the text goes on with `s`. -/
def startsWith (c : Cursor) (s : List Char) : Bool :=
  s.isPrefixOf c.rest

end Cursor

end ComponentScan.Syntax
