import ComponentScan.Text.Bytes

/-!
# Line numbers

Only a line feed ends a line. The index of a text is the ascending list of the byte offsets at which
its lines start; the line of an offset is the number of starts at or below it.
-/

namespace ComponentScan

/-- The byte offsets at which the lines of a text start. -/
structure LineIndex where
  starts : List Nat
  deriving Repr, Inhabited

namespace LineIndex

/-- The offsets just after the line feeds of a text that stands at `offset`. -/
def startsAfter (offset : Nat) : List Char → List Nat
  | [] => []
  | c :: r =>
    if c = '\n' then (offset + 1) :: startsAfter (offset + 1) r
    else startsAfter (offset + c.utf8Size) r

/-- The index of a text. -/
def ofText (s : List Char) : LineIndex :=
  ⟨0 :: startsAfter 0 s⟩

/-- The number of lines. -/
def count (index : LineIndex) : Nat :=
  index.starts.length

/-- The 1-based line of an offset. -/
def lineOf (index : LineIndex) (offset : Nat) : Nat :=
  index.starts.countP (· ≤ offset)

/-- The lines of the first and the last byte of a span; an empty span has the line of its start. -/
def linesOf (index : LineIndex) (span : Span) : Nat × Nat :=
  (index.lineOf span.start, index.lineOf (max (span.stop - 1) span.start))

end LineIndex

end ComponentScan
