import ComponentScan.Syntax.Token

/-!
# White space and comments

What stands between two tokens. A comment belongs to the token after it if it leads that token. It
does not if it trails the token before it: a block comment trails when a line break follows it and
none has been seen since that token, and takes the comments before it along; so does a line comment
that stands on the line of that token, unless that token is an equals sign or an opening
parenthesis.
-/

namespace ComponentScan.Syntax

/-- A character that ends a line. -/
def isLineBreak (c : Char) : Bool :=
  c == '\n' || c == '\r' || c.val == 0x2028 || c.val == 0x2029

/-- A character that separates tokens without ending a line. -/
def isSeparator (c : Char) : Bool :=
  let n := c.val
  n == 0x20 || n == 0x09 || n == 0x0B || n == 0x0C || n == 0x85 || n == 0xA0 || n == 0x1680 ||
    (0x2000 ≤ n && n ≤ 0x200B) || n == 0x202F || n == 0x205F || n == 0x3000 || n == 0xFEFF

/-- What has been seen since the last token. -/
structure Trivia where
  /-- Comments that still may lead the next token, the latest first. -/
  pending : List Span := []
  /-- Whether comments are on a line of their own from here on. -/
  onFreshLine : Bool
  /-- Whether any line break stands before the next token. -/
  newline : Bool := false
  /-- Whether line comments lead although they follow a token on its line. -/
  holdsLineComments : Bool
  deriving Inhabited

namespace Trivia

/-- Takes a line break. -/
def lineBreak (t : Trivia) : Trivia :=
  { t with
    pending := if t.onFreshLine then t.pending else []
    onFreshLine := true
    newline := true }

/-- Takes a line comment, which a line break follows. -/
def lineComment (t : Trivia) (span : Span) : Trivia :=
  { t with
    pending := if t.onFreshLine || t.holdsLineComments then span :: t.pending else []
    onFreshLine := true
    newline := true }

/-- Takes a block comment; `multiline` tells whether it holds a line break. -/
def blockComment (t : Trivia) (span : Span) (multiline : Bool) : Trivia :=
  { t with
    pending := span :: t.pending
    newline := t.newline || multiline }

end Trivia

/-- The text after a block comment and whether the comment holds a line break. -/
def skipBlockComment (multiline : Bool) : List Char → Nat → Option (Cursor × Bool)
  | [], _ => none
  | '*' :: '/' :: r, pos => some (⟨r, pos + 2⟩, multiline)
  | c :: r, pos => skipBlockComment (multiline || isLineBreak c) r (pos + c.utf8Size)

/-- Goes on to the next token; fails at a comment that does not end. Every step takes a character,
so the length of the text is enough `fuel`. -/
def skipTrivia : (fuel : Nat) → Trivia → Cursor → Option (Trivia × Cursor)
  | 0, t, c => some (t, c)
  | fuel + 1, t, c =>
    match c.rest with
    | '/' :: '/' :: _ =>
      let stop := c.skipWhile (!isLineBreak ·)
      skipTrivia fuel (t.lineComment ⟨c.pos, stop.pos⟩) stop
    | '/' :: '*' :: r => do
      let (stop, multiline) ← skipBlockComment false r (c.pos + 2)
      skipTrivia fuel (t.blockComment ⟨c.pos, stop.pos⟩ multiline) stop
    | x :: _ =>
      if isSeparator x then skipTrivia fuel t c.next
      else if isLineBreak x then skipTrivia fuel t.lineBreak c.next
      else some (t, c)
    | [] => some (t, c)

end ComponentScan.Syntax
