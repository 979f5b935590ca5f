import ComponentScan.Scan.AnnotationTags
import ComponentScan.Scan.ExportAlias
import ComponentScan.Scan.LazyComponent

/-!
# Scanning a source text

One walk over a file runs every detector at every node, in a fixed order. Then the export aliases
are applied and equal annotations are numbered.
-/

namespace ComponentScan

/-- The detectors in the order in which they run at each node. -/
def detectors : List Detector :=
  [FunctionComponent.detector, ClassComponent.detector, LazyComponent.detector,
    ExportAlias.detector, AnnotationTags.detector]

/-- Runs detectors at a node, one after the other. -/
def runDetectors (config : Config) (s : Session) (chosen : List Detector) : Callback ScanState
    ScanError Unit := fun v indent => do
  chosen.forM fun d => d.visit config s v indent
  return none

/-- The walk of a scan with some detectors, and what follows it unless `finish` is false. -/
def runScan (config : Config) (s : Session) (chosen : List Detector) (finish : Bool) : Scan Unit := do
  let _ ← walk s.root 0 (runDetectors config s chosen)
  if finish then ExportAlias.applyAliases

/-- What some detectors make of a file: the error that ended the walk, if any, and the report with
everything that was recorded before. -/
def detect (config : Config) (s : Session) (repo : RepoMetadata) (chosen : List Detector)
    (finish : Bool) : Option ScanError × ScanReport :=
  let (result, st) := (runScan config s chosen finish).run { report := .fresh s.path repo }
  let error := match result with
    | .ok () => none
    | .error e => some e
  (error, { st.report with debugLog := st.log })

/-- The report on a source text as the file at a path. -/
def scanSource (config : Config) (path source : String) (repo : RepoMetadata) :
    Except ScanError ScanReport := do
  let s ← Session.ofSource path source
  match detect config s repo detectors true with
  | (some e, _) => throw e
  | (none, report) => return { report with annotations := assignSequenceKeys report.annotations }

end ComponentScan
