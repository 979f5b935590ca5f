import ComponentScan.Syntax.Trivia
import ComponentScan.Text.IdentifierChar

/-!
# Reading tokens

Each reader takes the text at the start of a token and yields what it found and the text after it.
Where a reader loops over a text with escapes, the size of the text is enough `fuel`.
-/

namespace ComponentScan.Syntax

open Text

/-- What a reader found. -/
structure Lexeme where
  kind : TokenKind
  escaped : Bool := false
  after : Cursor
  deriving Inhabited

/-- No token starts here. -/
def Lexeme.none (c : Cursor) : Lexeme :=
  { kind := .invalid, after := c.next }

/-! ## Escapes -/

/-- The value of a hexadecimal digit. -/
def hexDigit? (c : Char) : Option Nat :=
  if '0' ≤ c ∧ c ≤ '9' then some (c.toNat - 48)
  else if 'a' ≤ c ∧ c ≤ 'f' then some (c.toNat - 87)
  else if 'A' ≤ c ∧ c ≤ 'F' then some (c.toNat - 55)
  else none

/-- Reads exactly `n` hexadecimal digits. -/
def hexDigits? : (n : Nat) → (value : Nat) → Cursor → Option (Nat × Cursor)
  | 0, value, c => some (value, c)
  | n + 1, value, c => do
    let x ← c.peek?
    let d ← hexDigit? x
    hexDigits? n (value * 16 + d) c.next

/-- Reads hexadecimal digits up to a closing brace; the value stays at most 10FFFF. -/
def bracedDigits? (some? : Bool) (value : Nat) : List Char → Nat → Option (Nat × Cursor)
  | [], _ => none
  | '\x7d' :: r, pos => if some? then some (value, ⟨r, pos + 1⟩) else none
  | x :: r, pos => do
    let d ← hexDigit? x
    let value := value * 16 + d
    if value > 0x10FFFF then none else bracedDigits? true value r (pos + 1)

/-- Reads a code point after the letter `u` of an escape. -/
def unicodeEscape? (c : Cursor) : Option (Nat × Cursor) :=
  match c.rest with
  | '\x7b' :: r => bracedDigits? false 0 r (c.pos + 1)
  | _ => hexDigits? 4 0 c

/-- Reads a code point as in a string, where a pair of escapes may stand for one character. -/
def unicodeEscapePair? (c : Cursor) : Option (Nat × Cursor) := do
  let (hi, after) ← unicodeEscape? c
  if 0xD800 ≤ hi && hi < 0xDC00 && after.startsWith ['\\', 'u'] then
    match hexDigits? 4 0 (after.skip 2) with
    | some (lo, after') =>
      if 0xDC00 ≤ lo && lo < 0xE000 then
        return (0x10000 + (hi - 0xD800) * 0x400 + (lo - 0xDC00), after')
      else return (hi, after)
    | none => return (hi, after)
  else return (hi, after)

/-- The character of a code point; half a pair becomes the replacement character. -/
def charOf (n : Nat) : Char :=
  if 0xD800 ≤ n ∧ n < 0xE000 then Char.ofNat 0xFFFD else Char.ofNat n

/-! ## Words -/

/-- Reads on in a word, whose characters so far are given in reverse. -/
def wordFrom (acc : List Char) (escaped : Bool) : (fuel : Nat) → Cursor → Option Lexeme
  | 0, _ => none
  | fuel + 1, c =>
    match c.rest with
    | '\\' :: 'u' :: _ => do
      let (n, after) ← unicodeEscape? (c.skip 2)
      let x := charOf n
      if if acc.isEmpty then isIdentifierStart x else isIdentifierPart x then
        wordFrom (x :: acc) true fuel after
      else none
    | x :: _ =>
      if if acc.isEmpty then isIdentifierStart x else isIdentifierPart x then
        wordFrom (x :: acc) escaped fuel c.next
      else if x == '\\' || acc.isEmpty then none
      else some ⟨.word (String.ofList acc.reverse), escaped, c⟩
    | [] => if acc.isEmpty then none else some ⟨.word (String.ofList acc.reverse), escaped, c⟩

/-- Reads a word. -/
def lexWord (fuel : Nat) (c : Cursor) : Lexeme :=
  (wordFrom [] false fuel c).getD (.none c)

/-- Reads a private name from its number sign. -/
def lexPrivateName (fuel : Nat) (c : Cursor) : Lexeme :=
  match lexWord fuel c.next with
  | ⟨.word name, escaped, after⟩ => ⟨.privateName name, escaped, after⟩
  | _ => .none c

/-! ## Numbers -/

/-- Moves past digits with single low lines between them; fails at a low line elsewhere. -/
def skipDigits (isDigit : Char → Bool) (afterDigit : Bool) : List Char → Nat → Option Cursor
  | [], pos => some ⟨[], pos⟩
  | '_' :: r, pos =>
    if afterDigit && r.head?.any isDigit then skipDigits isDigit false r (pos + 1) else none
  | x :: r, pos =>
    if isDigit x then skipDigits isDigit true r (pos + 1) else some ⟨x :: r, pos⟩

/-- Moves past at least one digit. -/
def skipDigits1 (isDigit : Char → Bool) (c : Cursor) : Option Cursor :=
  if c.peek?.any isDigit then skipDigits isDigit false c.rest c.pos else none

/-- A number ends before anything but a word or a digit. -/
def endNumber (kind : TokenKind) (after : Cursor) : Option Lexeme :=
  match after.peek? with
  | some x =>
    if isIdentifierStart x || isAsciiDigit x || x == '\\' then none
    else some { kind, after }
  | none => some { kind, after }

/-- Reads a number in another base after its two-character mark. -/
def lexRadix (isDigit : Char → Bool) (c : Cursor) : Option Lexeme := do
  let after ← skipDigits1 isDigit (c.skip 2)
  match after.rest with
  | 'n' :: _ => endNumber .bigint after.next
  | _ => endNumber .number after

/-- Reads the exponent that a number may have. -/
def lexExponent (c : Cursor) : Option Lexeme :=
  match c.rest with
  | 'e' :: r | 'E' :: r => do
    let digits := match r with
      | '+' :: _ | '-' :: _ => c.skip 2
      | _ => c.next
    endNumber .number (← skipDigits1 isAsciiDigit digits)
  | _ => endNumber .number c

/-- Reads what may follow the whole part of a decimal number. -/
def lexFraction (c : Cursor) : Option Lexeme :=
  match c.rest with
  | '.' :: x :: _ =>
    if isAsciiDigit x then do lexExponent (← skipDigits isAsciiDigit false c.next.rest c.next.pos)
    else if x == '_' then none
    else lexExponent c.next
  | '.' :: [] => lexExponent c.next
  | _ => lexExponent c

/-- Reads a number. -/
def number? (c : Cursor) : Option Lexeme :=
  match c.rest with
  | '0' :: x :: _ =>
    if x == 'x' || x == 'X' then lexRadix (fun d => (hexDigit? d).isSome) c
    else if x == 'o' || x == 'O' then lexRadix (fun d => '0' ≤ d && d ≤ '7') c
    else if x == 'b' || x == 'B' then lexRadix (fun d => d == '0' || d == '1') c
    else if x == '_' then none
    else if x == 'n' then endNumber .bigint (c.skip 2)
    else if isAsciiDigit x then
      let after := c.skipWhile isAsciiDigit
      let octal := (c.rest.takeWhile isAsciiDigit).all fun d => d ≤ '7'
      if octal then endNumber .number after else lexFraction after
    else lexFraction c.next
  | '.' :: _ => lexFraction c
  | _ => do
    let after ← skipDigits1 isAsciiDigit c
    match after.rest with
    | 'n' :: _ => endNumber .bigint after.next
    | _ => lexFraction after

/-- Reads a number. -/
def lexNumber (c : Cursor) : Lexeme :=
  (number? c).getD (.none c)

/-! ## Strings and templates -/

/-- An octal digit. -/
def octalDigit? (c : Char) : Option Nat :=
  if '0' ≤ c ∧ c ≤ '7' then some (c.toNat - 48) else none

/-- Reads up to `n` more octal digits. -/
def octalDigits : (n : Nat) → (value : Nat) → Cursor → Nat × Cursor
  | 0, value, c => (value, c)
  | n + 1, value, c =>
    match c.peek?.bind octalDigit? with
    | some d => octalDigits n (value * 8 + d) c.next
    | none => (value, c)

/-- Reads an escape after its backslash: the characters it stands for and the text after it. -/
def stringEscape? (c : Cursor) : Option (List Char × Cursor) :=
  match c.rest with
  | [] => none
  | '\r' :: '\n' :: _ => some ([], c.skip 2)
  | 'u' :: _ => (unicodeEscapePair? c.next).map fun (n, after) => ([charOf n], after)
  | 'x' :: _ => (hexDigits? 2 0 c.next).map fun (n, after) => ([charOf n], after)
  | x :: _ =>
    if isLineBreak x then some ([], c.next)
    else
      match octalDigit? x with
      | some d =>
        let (n, after) := octalDigits (if d < 4 then 2 else 1) d c.next
        some ([Char.ofNat n], after)
      | none =>
        let plain := match x with
          | 'n' => '\n'
          | 't' => '\t'
          | 'r' => '\r'
          | 'b' => Char.ofNat 8
          | 'f' => Char.ofNat 12
          | 'v' => Char.ofNat 11
          | _ => x
        some ([plain], c.next)

/-- Reads on in a string, whose characters so far are given in reverse. -/
def stringFrom (quote : Char) (acc : List Char) : (fuel : Nat) → Cursor → Option Lexeme
  | 0, _ => none
  | fuel + 1, c =>
    match c.rest with
    | [] => none
    | '\\' :: _ => do
      let (chars, after) ← stringEscape? c.next
      stringFrom quote (chars.reverse ++ acc) fuel after
    | x :: _ =>
      if x == quote then some { kind := .string (String.ofList acc.reverse), after := c.next }
      else if x == '\n' || x == '\r' then none
      else stringFrom quote (x :: acc) fuel c.next

/-- Reads a string from its opening quote. -/
def lexString (fuel : Nat) (quote : Char) (c : Cursor) : Lexeme :=
  (stringFrom quote [] fuel c.next).getD (.none c)

/-- Reads the value of a JSX attribute from its opening quote; it has no escapes and may span
lines. -/
def lexJsxString (quote : Char) (c : Cursor) : Lexeme :=
  let stop := c.next.skipWhile (· != quote)
  if stop.rest.isEmpty then .none c
  else
    let value := (c.next.rest.takeWhile (· != quote))
    { kind := .string (String.ofList value), after := stop.next }

/-- Whether an escape of a template, given after its backslash, has a value. -/
def isCookedEscape (c : Cursor) : Bool :=
  match c.rest with
  | 'u' :: _ => (unicodeEscape? c.next).isSome
  | 'x' :: _ => (hexDigits? 2 0 c.next).isSome
  | '0' :: x :: _ => !isAsciiDigit x
  | '0' :: [] => true
  | x :: _ => !isAsciiDigit x
  | [] => false

/-- Reads a piece of a template up to its end or its next substitution. -/
def templateFrom (cooked : Bool) : (fuel : Nat) → Cursor → Option Lexeme
  | 0, _ => none
  | fuel + 1, c =>
    match c.rest with
    | [] => none
    | '\x60' :: _ => some { kind := .template true cooked, after := c.next }
    | '$' :: '\x7b' :: _ => some { kind := .template false cooked, after := c.skip 2 }
    | '\\' :: _ :: _ => templateFrom (cooked && isCookedEscape c.next) fuel (c.skip 2)
    | _ => templateFrom cooked fuel c.next

/-- Reads a piece of a template after its opening mark, a backtick or a closing brace. -/
def lexTemplate (fuel : Nat) (c : Cursor) : Lexeme :=
  (templateFrom true fuel c.next).getD (.none c)

/-! ## Regular expressions and JSX -/

/-- Moves past the body of a regular expression and its closing slash. -/
def skipRegexBody (inClass : Bool) : List Char → Nat → Option Cursor
  | [], _ => none
  | '\\' :: x :: r, pos =>
    if isLineBreak x then none else skipRegexBody inClass r (pos + 1 + x.utf8Size)
  | x :: r, pos =>
    if isLineBreak x then none
    else if x == '[' then skipRegexBody true r (pos + 1)
    else if x == ']' then skipRegexBody false r (pos + 1)
    else if x == '/' && !inClass then some ⟨r, pos + 1⟩
    else skipRegexBody inClass r (pos + x.utf8Size)

/-- Whether the flags of a regular expression are known and given once. -/
def areRegexFlags : List Char → Bool
  | [] => true
  | x :: r => "dgimsuvy".toList.contains x && !r.contains x && areRegexFlags r

/-- Reads a regular expression from its opening slash. -/
def lexRegex (c : Cursor) : Lexeme :=
  match skipRegexBody false c.next.rest c.next.pos with
  | none => .none c
  | some body =>
    if areRegexFlags (body.rest.takeWhile isIdentifierPart) then
      { kind := .regex, after := body.skipWhile isIdentifierPart }
    else .none c

/-- Reads what comes next between JSX tags: an opening brace or angle bracket, or text up to one. -/
def lexJsxChild (c : Cursor) : Lexeme :=
  match c.rest with
  | [] => { kind := .eof, after := c }
  | '<' :: _ => { kind := .symbol "<", after := c.next }
  | '\x7b' :: _ => { kind := .symbol "\x7b", after := c.next }
  | _ =>
    let isText := fun x => x != '<' && x != '\x7b'
    if (c.rest.takeWhile isText).any fun x => x == '>' || x == '\x7d' then .none c
    else { kind := .jsxText, after := c.skipWhile isText }

/-- Reads on from the end of a word to the end of a JSX name, which may hold hyphens; its text is as
it is written. -/
def lexJsxName (c wordEnd : Cursor) : Lexeme :=
  let isPart := fun x => isIdentifierPart x || x == '-'
  let after := if wordEnd.peek? == some '-' then wordEnd.skipWhile isPart else wordEnd
  let length := c.rest.length - after.rest.length
  { kind := .word (String.ofList (c.rest.take length)), after }

/-! ## Punctuators -/

/-- The punctuators, a longer one before those it starts with. -/
def punctuators : List (List Char) :=
  ["...", "===", "!==", "**=", "<<=", "&&=", "||=", "??=", "=>", "==", "!=", "<=", "+=", "-=",
    "*=", "/=", "%=", "&=", "|=", "^=", "&&", "||", "??", "++", "--", "**", "<<", "\x7b", "\x7d", "(",
    ")", "[", "]", ".", ";", ",", "<", ">", "+", "-", "*", "/", "%", "&", "|", "^", "!", "~", "?", ":",
    "=", "@"].map String.toList

/-- The signs that start with a closing angle bracket, the longest first. -/
def angleSigns : List (List Char) :=
  [">>>=", ">>=", ">>>", ">=", ">>", ">"].map String.toList

/-- Reads the first of some signs that the text starts with. -/
def lexSign (signs : List (List Char)) (c : Cursor) : Lexeme :=
  match signs.find? c.startsWith with
  | some sign => { kind := .symbol (String.ofList sign), after := c.skip sign.length }
  | none => .none c

/-- Reads a punctuator. A question mark before a decimal fraction is no optional chain. -/
def lexPunctuator (c : Cursor) : Lexeme :=
  match c.rest with
  | '>' :: _ => { kind := .symbol ">", after := c.next }
  | '?' :: '.' :: x :: _ =>
    if isAsciiDigit x then { kind := .symbol "?", after := c.next }
    else { kind := .symbol "?.", after := c.skip 2 }
  | '?' :: '.' :: [] => { kind := .symbol "?.", after := c.skip 2 }
  | _ => lexSign punctuators c

/-- Reads the plain token at a place. -/
def lex (fuel : Nat) (c : Cursor) : Lexeme :=
  match c.rest with
  | [] => { kind := .eof, after := c }
  | '"' :: _ => lexString fuel '"' c
  | '\'' :: _ => lexString fuel '\'' c
  | '\x60' :: _ => lexTemplate fuel c
  | '#' :: _ => lexPrivateName fuel c
  | '\\' :: _ => lexWord fuel c
  | '.' :: x :: _ => if isAsciiDigit x then lexNumber c else lexPunctuator c
  | x :: _ =>
    if isAsciiDigit x then lexNumber c
    else if isIdentifierStart x then lexWord fuel c
    else lexPunctuator c

end ComponentScan.Syntax
