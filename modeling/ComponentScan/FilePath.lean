import ComponentScan.Text.Split

/-!
# File paths

Paths are text with `/` between their parts. A path that starts with `/` is absolute and stands for
itself wherever it is joined.
-/

namespace ComponentScan.FilePath

/-- The path `relative` seen from `root`. Joining an empty path leaves a closing slash. -/
def join (root relative : String) : String :=
  if relative.toList.head? = some '/' then relative
  else if root.toList = [] ∨ root.toList.getLast? = some '/' then root ++ relative
  else root ++ "/" ++ relative

/-- The parts of a path, without empty ones and those that name the directory they stand in. -/
def parts (path : String) : List String :=
  (Text.splitWhere (· == '/') path.toList).filterMap fun p =>
    if p = [] ∨ p = ['.'] then none else some (String.ofList p)

/-- What follows the last slash. -/
def fileName (path : String) : String :=
  String.ofList (((Text.splitWhere (· == '/') path.toList).getLast?).getD [])

/-- The path under which a report files a source: forward slashes, without one leading `./`. -/
def forReport (relative : String) : String :=
  let slashed := relative.toList.map fun c => if c = '\\' then '/' else c
  String.ofList ((Text.dropStart? ['.', '/'] slashed).getD slashed)

end ComponentScan.FilePath
