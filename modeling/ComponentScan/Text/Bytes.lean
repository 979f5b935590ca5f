/-!
# Byte offsets

Offsets count the bytes of the UTF-8 form of a text. An offset inside a character names no place:
`slice?` refuses it, as it refuses reversed ends and ends past the text.
-/

namespace ComponentScan

/-- A half-open range `[start, stop)` of byte offsets. -/
structure Span where
  start : Nat
  stop : Nat
  deriving Repr, DecidableEq, Inhabited

namespace Text

/-- The number of bytes of a text. -/
def byteLength : List Char → Nat
  | [] => 0
  | c :: r => c.utf8Size + byteLength r

@[simp] theorem byteLength_nil : byteLength [] = 0 := rfl

@[simp] theorem byteLength_cons (c : Char) (r : List Char) :
    byteLength (c :: r) = c.utf8Size + byteLength r := rfl

@[simp] theorem byteLength_append (s t : List Char) :
    byteLength (s ++ t) = byteLength s + byteLength t := by
  induction s with
  | nil => simp
  | cons c r ih => simp [ih, Nat.add_assoc]

/-- Cuts the text after `n` bytes, if a character ends there. -/
def cutAt? : Nat → List Char → Option (List Char × List Char)
  | 0, s => some ([], s)
  | _ + 1, [] => none
  | n + 1, c :: r =>
    if c.utf8Size ≤ n + 1 then
      (cutAt? (n + 1 - c.utf8Size) r).map fun (before, after) => (c :: before, after)
    else none

/-- The text between two byte offsets. -/
def slice? (s : List Char) (start stop : Nat) : Option (List Char) :=
  if start ≤ stop then do
    let (_, after) ← cutAt? start s
    let (piece, _) ← cutAt? (stop - start) after
    return piece
  else none

end Text

end ComponentScan
