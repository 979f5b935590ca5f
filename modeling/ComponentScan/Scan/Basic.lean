import ComponentScan.Config
import ComponentScan.Identity
import ComponentScan.Walk

/-!
# Scans

A scan is one walk over a file on which several detectors work on a common state: the report, its
log, and notes for later. A detector is called at each node and may fail, which ends the scan.
-/

namespace ComponentScan

structure ScanState where
  report : ScanReport
  log : List String := []
  /-- The offsets whose documentation comments have been taken. -/
  claimed : List Nat := []
  /-- Identities and the names under which statements elsewhere in the file export them. -/
  aliases : List (Identity × String) := []
  deriving Inhabited

/-- A step of a scan. -/
abbrev Scan := Action ScanState ScanError

namespace Scan

/-- Adds a line to the log, two spaces to the right per level of indentation. -/
def log (indent : Nat) (message : String) : Scan Unit :=
  let margin := String.ofList (List.replicate (2 * indent) ' ')
  modify fun st => { st with log := st.log ++ [margin ++ message] }

/-- Changes the report, and yields what the change yields. -/
def update {α : Type} (change : ScanReport → α × ScanReport) : Scan α :=
  modifyGet fun st =>
    let (a, report) := change st.report
    (a, { st with report })

/-- The identity of a node. -/
def identify (s : Session) (n : Syntax.Node) : Scan Identity :=
  liftExcept (s.identify n)
where
  /-- Fails as a result fails. -/
  liftExcept : Except ScanError Identity → Scan Identity
    | .ok id => return id
    | .error e => throw e

end Scan

/-- What looks at each node of a file. -/
structure Detector where
  name : String
  visit : Config → Session → Visit → (indent : Nat) → Scan Unit

end ComponentScan
