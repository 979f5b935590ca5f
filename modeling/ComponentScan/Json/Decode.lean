import ComponentScan.Json.Reader

/-!
# Decoding JSON values

A decoder goes through a value in the order of its text and stops at the first problem. A structure
is an object whose members are the fields in any order, each at most once, and members of other
names are skipped; or an array of the fields in their declared order.
-/

namespace ComponentScan.Json

/-- The result of decoding. -/
abbrev Decoded (α : Type) := Except JsonProblem α

namespace Value

/-- The problem of a value that is not of the wanted kind. -/
def mismatch {α : Type} : Value → Decoded α
  | broken problem => .error problem
  | cutNumber => .error .eof
  | unreadable => .error .notJson
  | _ => .error .wrongShape

/-- The deepest nesting of arrays and objects that is read. -/
def maxDepth : Nat := 127

mutual

/-- Reads a value of any shape that is nested at most `depth` deep. -/
def readable (depth : Nat) : Value → Decoded Unit
  | array items => if depth = 0 then .error .notJson else readableItems (depth - 1) items
  | object members => if depth = 0 then .error .notJson else readableMembers (depth - 1) members
  | broken problem => .error problem
  | cutNumber => .error .eof
  | unreadable => .error .notJson
  | _ => .ok ()

/-- Reads every item. -/
def readableItems (depth : Nat) : List Value → Decoded Unit
  | [] => .ok ()
  | v :: r => do
    readable depth v
    readableItems depth r

/-- Reads every member. -/
def readableMembers (depth : Nat) : List (String × Value) → Decoded Unit
  | [] => .ok ()
  | (_, v) :: r => do
    readable depth v
    readableMembers depth r

end

mutual

/-- Skips a value: only text that is no JSON is a problem. -/
def skip : Value → Decoded Unit
  | array items => skipItems items
  | object members => skipMembers members
  | broken problem => .error problem
  | cutNumber => .error .notJson
  | _ => .ok ()

/-- Skips every item. -/
def skipItems : List Value → Decoded Unit
  | [] => .ok ()
  | v :: r => do
    skip v
    skipItems r

/-- Skips every member. -/
def skipMembers : List (String × Value) → Decoded Unit
  | [] => .ok ()
  | (_, v) :: r => do
    skip v
    skipMembers r

end

/-- A string. -/
def asString : Value → Decoded String
  | string s => .ok s
  | v => v.mismatch

/-- A truth value. -/
def asBool : Value → Decoded Bool
  | bool b => .ok b
  | v => v.mismatch

/-- The bound of the numbers that a field may hold, the thirty-second power of two. -/
def wordBound : Nat := 4294967296

/-- A number below the bound. -/
def asWord : Value → Decoded Nat
  | natural n => if n < wordBound then .ok n else .error .wrongShape
  | v => v.mismatch

/-- Null or a value. -/
def asOption {α : Type} (decode : Value → Decoded α) : Value → Decoded (Option α)
  | null => .ok none
  | v => some <$> decode v

/-- An array of values of one kind. -/
def asList {α : Type} (decode : Value → Decoded α) : Value → Decoded (List α)
  | array items => items.mapM decode
  | v => v.mismatch

/-! ## Structures -/

/-- The fields of a structure in their declared order, each with the check of its value. -/
abbrev Schema := List (String × (Value → Decoded Unit))

/-- A field whose value `decode` has to accept. -/
def field {α : Type} (name : String) (decode : Value → Decoded α) :
    String × (Value → Decoded Unit) :=
  (name, fun v => (decode v).map fun _ => ())

/-- The fields that a text gives. -/
abbrev Fields := List (String × Value)

/-- Takes one member: a field is checked and may be given only once, other members are skipped. -/
def takeMember (schema : Schema) (fields : Fields) (name : String) (v : Value) : Decoded Fields :=
  match schema.lookup name with
  | none => do
    skip v
    return fields
  | some check => do
    if (fields.lookup name).isSome then throw .wrongShape
    check v
    return (name, v) :: fields

/-- What is left of an array after the last field has been taken. -/
def excess : List Value → Decoded Unit
  | [] => .ok ()
  | broken problem :: _ => .error problem
  | _ => .error .notJson

/-- Takes the fields of an array that stands for a structure, in order. -/
def takeItems : Schema → Fields → List Value → Decoded Fields
  | [], fields, items => do
    excess items
    return fields
  | _ :: _, fields, [] => .ok fields
  | (name, check) :: schema, fields, v :: items => do
    check v
    takeItems schema ((name, v) :: fields) items

/-- Takes the fields of a structure, of which an array has to give the first `required` ones. -/
def asFields (schema : Schema) (required : Nat) : Value → Decoded Fields
  | object members => members.foldlM (fun fields (name, v) => takeMember schema fields name v) []
  | array items => do
    let fields ← takeItems schema [] items
    if items.length < required then throw .wrongShape
    return fields
  | v => v.mismatch

/-- The value of a field that has to be given. -/
def Fields.get {α : Type} (fields : Fields) (name : String) (decode : Value → Decoded α) :
    Decoded α :=
  match fields.lookup name with
  | some v => decode v
  | none => .error .wrongShape

/-- The value of a field, or a default if it is not given. -/
def Fields.getD {α : Type} (fields : Fields) (name : String) (decode : Value → Decoded α)
    (default : α) : Decoded α :=
  match fields.lookup name with
  | some v => decode v
  | none => .ok default

end Value

/-- Decodes a whole text. -/
def decodeText {α : Type} (decode : Value → Decoded α) (text : String) : Decoded α := do
  let (v, clean) := read text
  let a ← decode v
  if clean then return a else throw .notJson

end ComponentScan.Json
