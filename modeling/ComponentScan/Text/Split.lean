/-!
# Cutting text into pieces

Texts are lists of characters here. No operation loses a character other than the separators it
names: `segments` keeps its line ends and so loses nothing at all (`flatten_segments`).
-/

namespace ComponentScan.Text

/-- Adds a character to the first piece. -/
def consHead (c : Char) : List (List Char) → List (List Char)
  | [] => [[c]]
  | p :: ps => (c :: p) :: ps

/-- The pieces between the characters that satisfy `p`, empty ones included. -/
def splitWhere (p : Char → Bool) : List Char → List (List Char)
  | [] => [[]]
  | c :: r => if p c then [] :: splitWhere p r else consHead c (splitWhere p r)

/-- The pieces that end after each line feed; the last one may lack it. An empty text has none. -/
def segments : List Char → List (List Char)
  | [] => []
  | c :: r => if c = '\n' then [c] :: segments r else consHead c (segments r)

@[simp] theorem flatten_consHead (c : Char) (ps : List (List Char)) :
    (consHead c ps).flatten = c :: ps.flatten := by
  cases ps <;> simp [consHead]

@[simp] theorem flatten_segments (s : List Char) : (segments s).flatten = s := by
  induction s with
  | nil => rfl
  | cons c r ih =>
    unfold segments
    split <;> simp [ih]

/-- Cuts around the last occurrence of a non-empty marker. -/
def splitLast (marker : List Char) : List Char → Option (List Char × List Char)
  | [] => none
  | c :: r =>
    match splitLast marker r with
    | some (before, after) => some (c :: before, after)
    | none =>
      if marker.isPrefixOf (c :: r) then some ([], (c :: r).drop marker.length) else none

/-- Cuts around the first occurrence of a character. -/
def splitFirst (mark : Char) : List Char → Option (List Char × List Char)
  | [] => none
  | c :: r =>
    if c = mark then some ([], r)
    else (splitFirst mark r).map fun (before, after) => (c :: before, after)

/-- Joins pieces with a separator between them. -/
def joinWith (sep : List Char) : List (List Char) → List Char
  | [] => []
  | [p] => p
  | p :: ps => p ++ sep ++ joinWith sep ps

/-- The text without `mark` if it starts with it. -/
def dropStart? (mark s : List Char) : Option (List Char) :=
  if mark.isPrefixOf s then some (s.drop mark.length) else none

/-- The text without `mark` if it ends with it. -/
def dropEnd? (mark s : List Char) : Option (List Char) :=
  if mark.isSuffixOf s then some (s.take (s.length - mark.length)) else none

end ComponentScan.Text
