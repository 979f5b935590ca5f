import ComponentScan.Cache
import ComponentScan.Patch
import ComponentScan.Repository
import ComponentScan.Scan.Source

/-!
# Work on files

Files are scanned, with or without a cache, and patched under the root that the options give. Each
action takes the file system as it is and yields the file system that it leaves, if it may write.
-/

namespace ComponentScan

/-- The metadata for reports: placeholders, if the options do not ask for them. -/
def repoMetadata (config : Config) (fs : FileSystem) : RepoMetadata :=
  if config.resolveRepository then Repository.metadata fs config.repositoryRoot else .placeholder

/-- The text of a file under the root. -/
def readSource (config : Config) (relative : String) (fs : FileSystem) : Except ScanError String :=
  let path := config.resolvePath relative
  (fs.readText path).mapError (.access path)

/-- Scans a file under the root for given metadata. -/
def scanFileWith (config : Config) (repo : RepoMetadata) (relative : String) (fs : FileSystem) :
    Except ScanError ScanReport := do
  let source ← readSource config relative fs
  scanSource config (FilePath.forReport relative) source repo

/-- Scans a file under the root. -/
def scanFile (config : Config) (relative : String) (fs : FileSystem) :
    Except ScanError ScanReport :=
  scanFileWith config (repoMetadata config fs) relative fs

/-- Scans files under the root; the failure of one does not touch the others. -/
def scanFiles (config : Config) (relatives : List String) (fs : FileSystem) :
    List (Except ScanError ScanReport) :=
  relatives.map fun relative => scanFileWith config (repoMetadata config fs) relative fs

/-- Scans a file under the root unless a cache holds its report. The metadata are always current. -/
def scanFileCached (config : Config) (cache : ReportCache) (relative : String) (fs : FileSystem) :
    Except ScanError ScanReport × FileSystem :=
  match readSource config relative fs with
  | .error e => (.error e, fs)
  | .ok source =>
    let path := FilePath.forReport relative
    let repo := repoMetadata config fs
    match cache.get path config source fs with
    | (some report, fs) => (.ok { report with repo }, fs)
    | (none, fs) =>
      match scanSource config path source repo with
      | .error e => (.error e, fs)
      | .ok report => (.ok report, cache.set path config source report fs)

/-! ## Back-patches -/

/-- The text of a file that a back-patch may change. -/
def readPatchable (path : String) (fs : FileSystem) : Except ScanError String :=
  match fs.locate path with
  | .error problem => .error (.access path problem)
  | .ok (_, .directory) => .error (.notAFile path)
  | .ok (_, .bytes _) => .error (.access path .notUtf8)
  | .ok (_, .text s) => .ok s

/-- Writes a permalink into the line at which a location starts. -/
def writeCrossReference (config : Config) (update : CrossReferenceUpdate) (fs : FileSystem) :
    Except ScanError (PatchOutcome × FileSystem) := do
  let location ← SourceLocation.parse update.sourceLocation
  let path := config.resolvePath location.path
  let content := (← readPatchable path fs).toList
  let tag := config.crossReferenceTag.toList
  match Patch.patchText? tag update.permalink.toList location.startLine content with
  | none => throw (.lineOutOfRange path location.startLine (Patch.lineCount content))
  | some (.patched, text) =>
    match fs.write path (.text (String.ofList text)) with
    | .ok fs => return (.patched, fs)
    | .error problem => throw (.access path problem)
  | some (outcome, _) => return (outcome, fs)

end ComponentScan
