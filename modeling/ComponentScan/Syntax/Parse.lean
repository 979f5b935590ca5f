import ComponentScan.Syntax.Dialect
import ComponentScan.Syntax.Lexer
import ComponentScan.Syntax.Node

/-!
# Parsing

A parser reads tokens one after the other and either yields a result or fails. It sees the current
token and the text after it; what it may take depends on a context that the grammar changes as it
goes down, such as whether `await` is an operator. Trying out an alternative is running a parser and
forgetting its effects if it fails.

Some faults do not stop a parser: it takes note of them and goes on, and the text is rejected at the
end. So an alternative with such a fault is not given up for another one.
-/

namespace ComponentScan.Syntax

/-- What holds where a parser runs. -/
structure Context where
  dialect : Dialect
  /-- A number of steps that no loop over the text exceeds. -/
  size : Nat
  /-- Whether `in` is an operator. -/
  allowIn : Bool := true
  allowYield : Bool := false
  allowAwait : Bool := false
  allowReturn : Bool := false
  /-- Whether declarations need no bodies and initialisers. -/
  ambient : Bool := false
  topLevel : Bool := true
  /-- Whether brackets end an expression, as they do in a decorator. -/
  inDecorator : Bool := false
  /-- Whether `extends` after a type starts a conditional type. -/
  allowConditionalTypes : Bool := true
  deriving Inhabited

/-- Comments, the latest first, each with the start of the token that it leads. They stand apart in
the order of the text. -/
structure CommentLog where
  entries : List (Nat × Span) := []
  /-- Where the comments end. -/
  stop : Nat := 0
  within : ∀ e ∈ entries, e.2.stop ≤ stop := by exact nofun
  ordered : entries.Pairwise fun e e' => e'.2.stop ≤ e.2.start := by exact .nil

def CommentLog.empty : CommentLog := {}

instance : Inhabited CommentLog := ⟨.empty⟩

/-- Adds a comment; text that has been read again has its comments in the log already. -/
def CommentLog.add (log : CommentLog) (token : Nat) (span : Span) : CommentLog :=
  if h : log.stop ≤ span.start then
    { entries := (token, span) :: log.entries
      stop := max log.stop span.stop
      within := List.forall_mem_cons.2 ⟨Nat.le_max_right _ _, fun e he =>
        Nat.le_trans (log.within e he) (Nat.le_max_left _ _)⟩
      ordered := .cons (fun e he => Nat.le_trans (log.within e he) h) log.ordered }
  else log

/-- Adds the comments that lead a token, which are given with the latest first. -/
def CommentLog.addAll (log : CommentLog) (token : Nat) (leading : List Span) : CommentLog :=
  leading.foldr (fun span log => log.add token span) log

/-- Where a parser has got to. -/
structure State where
  token : Token
  /-- The text at the start of the current token. -/
  here : Cursor
  /-- The text after the current token. -/
  after : Cursor
  /-- The end of the token before the current one. -/
  prevStop : Nat := 0
  comments : CommentLog := .empty
  /-- Whether a fault has been noted. -/
  faulty : Bool := false
  /-- Whether something has been read that only a module holds. -/
  isModule : Bool := false
  deriving Inhabited

namespace State

/-- Makes what was read at a place the current token. -/
def load (s : State) (place : Cursor) (newline : Bool) (lexeme : Lexeme) : State :=
  { s with
    token :=
      { kind := lexeme.kind, start := place.pos, stop := lexeme.after.pos, newlineBefore := newline,
        escaped := lexeme.escaped }
    here := place
    after := lexeme.after }

/-- Whether line comments after a token lead the next one. -/
def holdsLineComments (k : TokenKind) : Bool :=
  k == .symbol "=" || k == .symbol "("

/-- Goes on to the next token, which is read by `lexer`. -/
def advance (size : Nat) (lexer : Cursor → Lexeme) (s : State) : State :=
  let trivia : Trivia :=
    { onFreshLine := false, holdsLineComments := holdsLineComments s.token.kind }
  let s := { s with prevStop := s.token.stop }
  match skipTrivia size trivia s.after with
  | none => load s s.after false (.none s.after)
  | some (trivia, place) =>
    { load s place trivia.newline (lexer place) with
      comments := s.comments.addAll place.pos trivia.pending }

end State

abbrev Parse := ReaderT Context (StateT State Option)

namespace Parse

/-- No result. -/
def reject {α : Type} : Parse α :=
  fun _ _ => none

/-- Takes note of a fault. -/
def fault : Parse Unit :=
  modify fun s => { s with faulty := true }

/-- Takes note of a fault if the condition holds. -/
def faultIf (bad : Bool) : Parse Unit :=
  if bad then fault else pure ()

/-- Runs a parser; if it fails, nothing has happened. -/
def attempt {α : Type} (p : Parse α) : Parse (Option α) :=
  fun ctx s =>
    match p ctx s with
    | some (a, s') => some (some a, s')
    | none => some (none, s)

/-- What a parser finds ahead of the current token, without taking anything; `otherwise` if it
fails. -/
def ahead {α : Type} (otherwise : α) (p : Parse α) : Parse α :=
  fun ctx s =>
    match p ctx s with
    | some (a, _) => some (a, s)
    | none => some (otherwise, s)

/-- What a test says ahead of the current token; a test that fails says no. -/
def lookahead (p : Parse Bool) : Parse Bool :=
  ahead false p

/-- Runs a parser in a changed context. -/
def within {α : Type} (change : Context → Context) (p : Parse α) : Parse α :=
  fun ctx s => p (change ctx) s

/-- Repeats a step that hands on a state until it yields none. -/
def loopFrom {σ : Type} (step : σ → Parse (Option σ)) : (fuel : Nat) → σ → Parse σ
  | 0, _ => reject
  | fuel + 1, state => do
    match ← step state with
    | some state => loopFrom step fuel state
    | none => return state

/-- Repeats a step that hands on a state until it yields none. -/
def loop {σ : Type} (init : σ) (step : σ → Parse (Option σ)) : Parse σ := do
  loopFrom step (← read).size init

/-- The results of a step that is repeated until it yields none. -/
def many {α : Type} (step : Parse (Option α)) : Parse (List α) := do
  let reversed ← loop [] fun acc => return (← step).map (· :: acc)
  return reversed.reverse

/-! ## Tokens -/

def token : Parse Token :=
  return (← get).token

/-- The start of the current token. -/
def here : Parse Nat :=
  return (← get).token.start

/-- The end of the last token that was taken. -/
def lastStop : Parse Nat :=
  return (← get).prevStop

/-- Takes the current token. -/
def advance : Parse Unit := do
  let size := (← read).size
  modify (State.advance size (lex size))

/-- Takes the current token, without looking for white space after it. -/
def advanceTight (lexer : Cursor → Lexeme) : Parse Unit :=
  modify fun s => State.load { s with prevStop := s.token.stop } s.after false (lexer s.after)

/-- Reads the current token anew. -/
def reread (lexer : Cursor → Lexeme) : Parse Unit :=
  modify fun s => State.load s s.here s.token.newlineBefore (lexer s.here)

def atSymbol (text : String) : Parse Bool :=
  return (← get).token.isSymbol text

def atWord (name : String) : Parse Bool :=
  return (← get).token.isWord name

def atEnd : Parse Bool :=
  return (← get).token.kind == .eof

/-- Whether a line break stands before the current token. -/
def onNewLine : Parse Bool :=
  return (← get).token.newlineBefore

/-- Takes a punctuator if it is there. -/
def eat (text : String) : Parse Bool := do
  if ← atSymbol text then
    advance
    return true
  else return false

/-- Takes a keyword if it is there. -/
def eatWord (name : String) : Parse Bool := do
  if ← atWord name then
    advance
    return true
  else return false

/-- Takes a punctuator. -/
def expect (text : String) : Parse Unit := do
  if ← atSymbol text then advance else reject

/-- Takes a keyword. -/
def expectWord (name : String) : Parse Unit := do
  if ← atWord name then advance else reject

/-- A test of the token after the current one. -/
def nextIs (test : Parse Bool) : Parse Bool :=
  lookahead do
    advance
    test

/-- Whether a statement may end here. -/
def canEndStatement : Parse Bool := do
  let t ← token
  return t.isSymbol ";" || t.isSymbol "\x7d" || t.kind == .eof || t.newlineBefore

/-- Ends a statement, with a semicolon unless one is implied. -/
def endStatement : Parse Unit := do
  if ← eat ";" then return
  if ← canEndStatement then return
  reject

/-! ## Nodes -/

/-- A node that ends with the last token taken. -/
def node (kind : Kind) (start : Nat) (children : List Node) : Parse Node :=
  return ⟨kind, ⟨start, ← lastStop⟩, children⟩

/-- A node that is the current token. -/
def leaf (kind : Kind) : Parse Node := do
  let t ← token
  advance
  return ⟨kind, ⟨t.start, t.stop⟩, []⟩

/-- Items with separators between them, up to a closing sign that is not taken. A separator may
follow the last item. -/
def separated (separator closer : String) (item : Parse Node) : Parse (List Node) := do
  let (reversed, _) ← loop ([], true) fun (acc, mayGoOn) => do
    if ← atSymbol closer then return none
    if !mayGoOn then reject
    let n ← item
    return some (n :: acc, ← eat separator)
  return reversed.reverse

end Parse

end ComponentScan.Syntax
