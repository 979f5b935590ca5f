import ComponentScan.Error
import ComponentScan.Text.Decimal
import ComponentScan.Text.Split

/-!
# Source locations

A location is written `<path>#L<line>` or `<path>#L<first>-<last>`; lines count from 1 and the range
is inclusive. The printer `SourceLocation.text` and the reader `SourceLocation.parse` fix the
format: the path is everything before the last `#L`, so it may itself hold that mark.
-/

namespace ComponentScan

/-- A range of lines of one file. -/
structure SourceLocation where
  path : String
  startLine : Nat
  endLine : Nat
  deriving Repr, DecidableEq, Inhabited

namespace SourceLocation

/-- The range from `startLine` to `endLine`, or to `startLine` if that comes later. -/
def ofLines (path : String) (startLine endLine : Nat) : SourceLocation :=
  ⟨path, startLine, max endLine startLine⟩

/-- A single line. -/
def line (path : String) (n : Nat) : SourceLocation :=
  ofLines path n n

/-- Whether the range is one line. -/
def isSingleLine (l : SourceLocation) : Bool :=
  l.startLine == l.endLine

/-- What stands between the path and the lines. -/
def marker : List Char := ['#', 'L']

/-- The lines of a location as they are written. -/
def lineText (l : SourceLocation) : List Char :=
  if l.isSingleLine then Text.Decimal.digits l.startLine
  else Text.Decimal.digits l.startLine ++ '-' :: Text.Decimal.digits l.endLine

/-- The written form. -/
def text (l : SourceLocation) : String :=
  String.ofList (l.path.toList ++ marker ++ l.lineText)

/-- Lines are numbers below this bound. -/
def lineBound : Nat := 4294967296

/-- A line number: decimal digits, perhaps after a plus sign, of a value from 1 up to the bound. -/
def parseLine? (s : List Char) : Option Nat :=
  let numeral := match s with
    | '+' :: r => r
    | _ => s
  (Text.Decimal.value? numeral).filter fun n => 0 < n ∧ n < lineBound

/-- Reads a written location. -/
def parse (location : String) : Except ScanError SourceLocation :=
  match Text.splitLast marker location.toList with
  | none => .error (.malformedLocation location)
  | some (path, lines) =>
    if path.isEmpty || lines.isEmpty then .error (.malformedLocation location)
    else
      let lineAt (s : List Char) : Except ScanError Nat :=
        match parseLine? s with
        | some n => .ok n
        | none => .error (.invalidLine location (String.ofList s))
      match Text.splitFirst '-' lines with
      | some (first, last) => do
        let startLine ← lineAt first
        let endLine ← lineAt last
        return ofLines (String.ofList path) startLine endLine
      | none => do
        let n ← lineAt lines
        return line (String.ofList path) n

end SourceLocation

end ComponentScan
