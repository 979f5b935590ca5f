import ComponentScan.Error
import ComponentScan.Text.Decimal

/-!
# JSON values

A value is what a reader sees of a JSON text, problems included: where the text stops being JSON
there is a `broken` leaf and nothing after it. So a decoder that goes through a value in order meets
the first problem of the text first, be it a wrong shape or broken text.

The printer writes no white space and escapes only what must be escaped.
-/

namespace ComponentScan.Json

inductive Value
  | null
  | bool (b : Bool)
  | natural (n : Nat)
  /-- A number that is negative or has a fraction or an exponent; no field holds one. -/
  | otherNumber
  | string (s : String)
  | array (items : List Value)
  | object (members : List (String × Value))
  /-- The text is no JSON from here on. -/
  | broken (problem : JsonProblem)
  /-- The text ends inside a number. -/
  | cutNumber
  /-- A string that escapes half a character, or a number too large for any field. It is well
  formed, so it is harmless where it is skipped. -/
  | unreadable
  deriving Repr, Inhabited

/-! ## Printing -/

/-- A hexadecimal digit in lower case. -/
def hexDigit (n : Nat) : Char :=
  if n < 10 then Char.ofNat (48 + n) else Char.ofNat (87 + n)

/-- The form of a character inside a quoted string. -/
def escapeChar (c : Char) : List Char :=
  if c = '"' then ['\\', '"']
  else if c = '\\' then ['\\', '\\']
  else if c = '\n' then ['\\', 'n']
  else if c = '\r' then ['\\', 'r']
  else if c = '\t' then ['\\', 't']
  else if c.val = 8 then ['\\', 'b']
  else if c.val = 12 then ['\\', 'f']
  else if c.val < 0x20 then
    ['\\', 'u', '0', '0', hexDigit (c.toNat / 16), hexDigit (c.toNat % 16)]
  else [c]

/-- A quoted string. -/
def quote (s : String) : List Char :=
  '"' :: (s.toList.flatMap escapeChar ++ ['"'])

mutual

/-- The written form of a value. Leaves that stand for problems of a text are written as null. -/
def Value.print : Value → List Char
  | .bool true => ['t', 'r', 'u', 'e']
  | .bool false => ['f', 'a', 'l', 's', 'e']
  | .natural n => Text.Decimal.digits n
  | .string s => quote s
  | .array items => '[' :: Value.printItems items
  | .object members => '\x7b' :: Value.printMembers members
  | .null | .otherNumber | .broken _ | .cutNumber | .unreadable => ['n', 'u', 'l', 'l']

/-- The items of an array, up to and with its bracket. -/
def Value.printItems : List Value → List Char
  | [] => [']']
  | [v] => v.print ++ [']']
  | v :: w :: r => v.print ++ ',' :: Value.printItems (w :: r)

/-- The members of an object, up to and with its brace. -/
def Value.printMembers : List (String × Value) → List Char
  | [] => ['\x7d']
  | [(k, v)] => quote k ++ ':' :: v.print ++ ['\x7d']
  | (k, v) :: m :: r => quote k ++ ':' :: v.print ++ ',' :: Value.printMembers (m :: r)

end

/-- The JSON text of a value. -/
def Value.text (v : Value) : String :=
  String.ofList v.print

end ComponentScan.Json
