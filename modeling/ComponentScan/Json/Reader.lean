import ComponentScan.Json.Value

/-!
# Reading JSON text

`read` turns any text into a value, with the problems of the text inside it, and says whether
anything but white space follows the value. A part that is read completely comes with the text after
it; a part that is broken comes with none, and the reader stops there.
-/

namespace ComponentScan.Json

/-- The white space of JSON. -/
def isSpace (c : Char) : Bool :=
  c == ' ' || c == '\n' || c == '\t' || c == '\r'

/-- The text from its first character that is no white space. -/
def skipSpace (s : List Char) : List Char :=
  s.dropWhile isSpace

/-- A value and the text after it, if the value is complete. -/
abbrev Reading := Value × Option (List Char)

/-- The reading of a text that is broken here. -/
def Reading.fail (problem : JsonProblem) : Reading :=
  (.broken problem, none)

/-! ## Words and numbers -/

/-- Reads the rest of a fixed word. -/
def readWord (value : Value) : (word text : List Char) → Reading
  | [], s => (value, some s)
  | _ :: _, [] => .fail .eof
  | w :: ws, c :: r => if c = w then readWord value ws r else .fail .notJson

/-- A run of digits and the text after it. -/
def digitRun (s : List Char) : List Char × List Char :=
  s.span fun c => '0' ≤ c && c ≤ '9'

/-- The power of ten that bounds the numbers a field could hold. -/
def maxExponent : Nat := 309

/-- Whether a decimal is too large for a double: `digits` are its digits without the point and
`point` the power of ten by which its first digit is scaled. -/
def tooLarge (digits : List Char) (point : Int) : Bool :=
  let significant := digits.dropWhile (· == '0')
  let point := point - (digits.length - significant.length : Nat)
  if significant.isEmpty then false
  else if point > maxExponent then true
  else if point < maxExponent then false
  else
    let value := (Text.Decimal.value? significant).getD 0
    let limit := Nat.pow 2 1024 - Nat.pow 2 970
    if significant.length ≤ maxExponent then
      limit ≤ value * Nat.pow 10 (maxExponent - significant.length)
    else limit * Nat.pow 10 (significant.length - maxExponent) ≤ value

/-- Reads the exponent of a number after its letter. -/
def readExponent (digits : List Char) (point : Int) (s : List Char) : Reading :=
  let (negative, s) := match s with
    | '+' :: r => (false, r)
    | '-' :: r => (true, r)
    | _ => (false, s)
  match digitRun s with
  | ([], []) => (.cutNumber, none)
  | ([], _ :: _) => .fail .notJson
  | (exponent, rest) =>
    let e : Int := ((Text.Decimal.value? exponent).getD 0 : Nat)
    let point := if negative then point - e else point + e
    (if tooLarge digits point then .unreadable else .otherNumber, some rest)

/-- Reads what may follow the digits of the whole part. -/
def readFraction (negative : Bool) (whole s : List Char) : Reading :=
  match s with
  | '.' :: r =>
    match digitRun r with
    | ([], []) => (.cutNumber, none)
    | ([], _ :: _) => .fail .notJson
    | (fraction, rest) =>
      let digits := whole ++ fraction
      match rest with
      | 'e' :: r => readExponent digits whole.length r
      | 'E' :: r => readExponent digits whole.length r
      | _ => (if tooLarge digits whole.length then .unreadable else .otherNumber, some rest)
  | 'e' :: r => readExponent whole whole.length r
  | 'E' :: r => readExponent whole whole.length r
  | _ =>
    if tooLarge whole whole.length then (.unreadable, some s)
    else if negative then (.otherNumber, some s)
    else (.natural ((Text.Decimal.value? whole).getD 0), some s)

/-- Reads a number from its first digit; a zero stands alone. -/
def readNumber (negative : Bool) (s : List Char) : Reading :=
  match digitRun s with
  | ([], []) => (.cutNumber, none)
  | ([], _ :: _) => .fail .notJson
  | ('0' :: _ :: _, _) => .fail .notJson
  | (whole, rest) => readFraction negative whole rest

/-! ## Strings -/

/-- The value of a hexadecimal digit. -/
def hexValue? (c : Char) : Option Nat :=
  if '0' ≤ c ∧ c ≤ '9' then some (c.toNat - 48)
  else if 'a' ≤ c ∧ c ≤ 'f' then some (c.toNat - 87)
  else if 'A' ≤ c ∧ c ≤ 'F' then some (c.toNat - 55)
  else none

/-- The value of four hexadecimal digits. -/
def hexQuad? (a b c d : Char) : Option Nat := do
  let a ← hexValue? a
  let b ← hexValue? b
  let c ← hexValue? c
  let d ← hexValue? d
  return ((a * 16 + b) * 16 + c) * 16 + d

/-- One element of a quoted string. -/
inductive StringPart
  /-- A character, written plainly or escaped. -/
  | char (c : Char)
  /-- Half of a surrogate pair without the other half. -/
  | half
  deriving Repr, Inhabited

/-- The character of a one-letter escape. -/
def escaped? (c : Char) : Option Char :=
  match c with
  | '"' => some '"'
  | '\\' => some '\\'
  | '/' => some '/'
  | 'b' => some (Char.ofNat 8)
  | 'f' => some (Char.ofNat 12)
  | 'n' => some '\n'
  | 'r' => some '\r'
  | 't' => some '\t'
  | _ => none

/-- Reads an escape after its backslash: what it stands for and the text after it. -/
def readEscape (s : List Char) : Except JsonProblem (StringPart × List Char) :=
  match s with
  | [] => .error .eof
  | 'u' :: a :: b :: c :: d :: r =>
    match hexQuad? a b c d with
    | none => .error .notJson
    | some hi =>
      if 0xDC00 ≤ hi ∧ hi < 0xE000 then .ok (.half, r)
      else if 0xD800 ≤ hi ∧ hi < 0xDC00 then
        match r with
        | '\\' :: 'u' :: a :: b :: c :: d :: r' =>
          match hexQuad? a b c d with
          | none => .error .notJson
          | some lo =>
            if 0xDC00 ≤ lo ∧ lo < 0xE000 then
              .ok (.char (Char.ofNat (0x10000 + (hi - 0xD800) * 0x400 + (lo - 0xDC00))), r')
            else .ok (.half, r)
        | _ => .ok (.half, r)
      else .ok (.char (Char.ofNat hi), r)
  | 'u' :: _ => .error .eof
  | c :: r =>
    match escaped? c with
    | some d => .ok (.char d, r)
    | none => .error .notJson

/-- Reads a string after its opening quote: its characters, or `none` if some are half, and the text
after its closing quote. Every step takes at least one character, so the length of the text is
enough `fuel`. -/
def readString : (fuel : Nat) → List Char → Except JsonProblem (Option (List Char) × List Char)
  | 0, _ => .error .eof
  | _ + 1, [] => .error .eof
  | _ + 1, '"' :: r => .ok (some [], r)
  | fuel + 1, '\\' :: r => do
    let (part, r) ← readEscape r
    let (rest, after) ← readString fuel r
    match part with
    | .char c => return (rest.map (c :: ·), after)
    | .half => return (none, after)
  | fuel + 1, c :: r => do
    if c.val < 0x20 then throw .notJson
    let (rest, after) ← readString fuel r
    return (rest.map (c :: ·), after)

/-! ## Values -/

mutual

/-- Reads a value; every step takes a character. -/
def readValue : (fuel : Nat) → List Char → Reading
  | 0, _ => .fail .eof
  | fuel + 1, s =>
    match skipSpace s with
    | [] => .fail .eof
    | 'n' :: r => readWord .null ['u', 'l', 'l'] r
    | 't' :: r => readWord (.bool true) ['r', 'u', 'e'] r
    | 'f' :: r => readWord (.bool false) ['a', 'l', 's', 'e'] r
    | '"' :: r =>
      match readString (r.length + 1) r with
      | .error problem => .fail problem
      | .ok (some cs, after) => (.string (String.ofList cs), some after)
      | .ok (none, after) => (.unreadable, some after)
    | '-' :: r => readNumber true r
    | '[' :: r =>
      match skipSpace r with
      | ']' :: r => (.array [], some r)
      | r =>
        let (items, rest) := readItems fuel r
        (.array items, rest)
    | '\x7b' :: r =>
      match skipSpace r with
      | '\x7d' :: r => (.object [], some r)
      | r =>
        let (members, rest) := readMembers fuel r
        (.object members, rest)
    | c :: r => if '0' ≤ c ∧ c ≤ '9' then readNumber false (c :: r) else .fail .notJson

/-- Reads the items of an array that is not empty. -/
def readItems : (fuel : Nat) → List Char → List Value × Option (List Char)
  | 0, _ => ([.broken .eof], none)
  | fuel + 1, s =>
    match skipSpace s with
    | [] => ([.broken .eof], none)
    | ']' :: _ => ([.broken .notJson], none)
    | s =>
      match readValue fuel s with
      | (v, none) => ([v], none)
      | (v, some r) =>
        match skipSpace r with
        | ']' :: r => ([v], some r)
        | ',' :: r =>
          let (items, rest) := readItems fuel r
          (v :: items, rest)
        | [] => ([v, .broken .eof], none)
        | _ => ([v, .broken .notJson], none)

/-- Reads the members of an object that is not empty. A member whose name cannot be read has an
empty name and a broken value. -/
def readMembers : (fuel : Nat) → List Char → List (String × Value) × Option (List Char)
  | 0, _ => ([("", .broken .eof)], none)
  | fuel + 1, s =>
    match skipSpace s with
    | [] => ([("", .broken .eof)], none)
    | '"' :: r =>
      match readString (r.length + 1) r with
      | .error problem => ([("", .broken problem)], none)
      | .ok (none, _) => ([("", .broken .notJson)], none)
      | .ok (some name, r) =>
        let name := String.ofList name
        match skipSpace r with
        | ':' :: r =>
          match readValue fuel r with
          | (v, none) => ([(name, v)], none)
          | (v, some r) =>
            match skipSpace r with
            | '\x7d' :: r => ([(name, v)], some r)
            | ',' :: r =>
              let (members, rest) := readMembers fuel r
              ((name, v) :: members, rest)
            | [] => ([(name, v), ("", .broken .eof)], none)
            | _ => ([(name, v), ("", .broken .notJson)], none)
        | [] => ([(name, .broken .eof)], none)
        | _ => ([(name, .broken .notJson)], none)
    | _ => ([("", .broken .notJson)], none)

end

/-- The value at the start of a text, and whether nothing but white space follows it. -/
def read (text : String) : Value × Bool :=
  let s := text.toList
  match readValue (2 * s.length + 2) s with
  | (v, some rest) => (v, (skipSpace rest).isEmpty)
  | (v, none) => (v, true)

end ComponentScan.Json
