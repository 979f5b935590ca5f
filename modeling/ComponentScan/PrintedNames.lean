import ComponentScan.Text.Split

/-!
# Printed names

Base classes and wrappers of dynamic imports are recognised by the way they are written. Type
arguments do not count: the name of a printed expression ends before its first `<`.
-/

namespace ComponentScan

/-- The names that count. -/
structure PrintedNames where
  names : List String
  deriving Repr, DecidableEq, Inhabited

namespace PrintedNames

/-- Whether a printed expression, free of white space, is one of the names. -/
def matchesText (p : PrintedNames) (printed : String) : Bool :=
  p.names.contains (String.ofList (printed.toList.takeWhile (· ≠ '<')))

/-- A list of names as a message shows it: in order and without repeats. -/
def describe (p : PrintedNames) : String :=
  let sorted := (p.names.eraseDups).mergeSort fun a b => decide (a ≤ b)
  let listed := String.intercalate ", " sorted
  s!"printed name in [{listed}]"

end PrintedNames

end ComponentScan
