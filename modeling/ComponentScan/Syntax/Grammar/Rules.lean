import ComponentScan.Syntax.Parse

/-!
# Rules that refer to each other

The grammar is recursive, but only through a few nonterminals. Every other rule is a parser built
from parsers for these; the recursion is closed at the end, by the depth of nesting.
-/

namespace ComponentScan.Syntax

/-- Where a statement stands: in a list, after a label, or as the only statement of another one. -/
inductive StatementPlace
  | list | label | single
  deriving Repr, DecidableEq, Inhabited

inductive Nonterminal
  | statement (place : StatementPlace)
  /-- Expressions separated by commas. -/
  | expression
  /-- One expression without commas; the argument tells whether the head of an arrow function may
  have a return type. -/
  | assignment (arrowReturn : Bool)
  /-- Operators that bind more strongly than the given precedence. -/
  | binary (above : Nat)
  | unary
  /-- What calls, accesses and updates apply to. -/
  | leftHandSide
  /-- What `new` constructs. -/
  | constructed
  | type
  /-- A type without a union and without a condition. -/
  | typeOperator
  /-- A name or pattern that is bound. -/
  | binding
  | jsxElement (nested : Bool)

/-- A parser for each nonterminal. -/
abbrev Rules := Nonterminal → Parse Node

end ComponentScan.Syntax
