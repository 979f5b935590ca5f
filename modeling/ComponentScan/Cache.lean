import ComponentScan.FileSystem
import ComponentScan.Report.Json
import ComponentScan.Config
import ComponentScan.Sha256

/-!
# Report caches

A cache keeps one report per report path in a directory, with a digest of the source and of every
option that changes what a scan detects. A report is given back only if the digest is the same;
metadata of the repository are not part of the digest. A cache never fails: an entry that cannot be
read counts as missing, one that is no entry is removed, and one that cannot be written is not kept.
-/

namespace ComponentScan

structure CacheEntry where
  /-- The digest of what the report depends on. -/
  hash : String
  report : ScanReport
  deriving Repr, DecidableEq, Inhabited

namespace CacheEntry

open Json Json.Value

def encode (e : CacheEntry) : Value :=
  .object [("hash", .string e.hash), ("report", e.report.encode)]

/-- How many arrays and objects may be opened inside an entry. -/
def reportDepth : Nat := maxDepth - 1

def schema : Schema :=
  [field "hash" asString, field "report" (ScanReport.decode reportDepth)]

def decode (v : Value) : Decoded CacheEntry := do
  let f ← asFields schema 2 v
  return {
    hash := ← f.get "hash" asString
    report := ← f.get "report" (ScanReport.decode reportDepth) }

end CacheEntry

/-- A cache in a directory. -/
structure ReportCache where
  directory : String
  deriving Repr, DecidableEq, Inhabited

namespace ReportCache

/-! ## Digests -/

/-- The bytes of a text. -/
def textBytes (s : String) : List UInt8 :=
  s.toUTF8.toList

/-- The bytes of some texts, each closed by a zero byte, and a byte that closes the list. -/
def listBytes (items : List String) : List UInt8 :=
  items.flatMap (fun s => textBytes s ++ [0]) ++ [1]

/-- What a report depends on, as bytes. -/
def keyBytes (config : Config) (source : String) : List UInt8 :=
  textBytes config.crossReferenceTag ++ [0] ++ listBytes config.pendingWorkTags ++
    listBytes config.componentBaseClasses ++ listBytes config.lazyLoadCallees ++ textBytes source

/-- The digest of what a report depends on. -/
def entryHash (config : Config) (source : String) : String :=
  Sha256.digest (keyBytes config source)

/-! ## Entries -/

/-- A cache in a directory, which is made if it is missing. -/
def create (directory : String) (fs : FileSystem) : Except ScanError (ReportCache × FileSystem) :=
  match fs.createDirectories directory with
  | .ok fs => .ok (⟨directory⟩, fs)
  | .error problem => .error (.access directory problem)

/-- A character of the name of an entry: separators of paths become underscores. -/
def fileNameChar (c : Char) : Char :=
  if c = '/' ∨ c = '\\' ∨ c = ':' then '_' else c

/-- The file that holds the entry of a report path. -/
def entryPath (cache : ReportCache) (reportPath : String) : String :=
  FilePath.join cache.directory (String.ofList (reportPath.toList.map fileNameChar) ++ ".json")

/-- The report that is kept for a path, if it was made from the same source and options. -/
def get (cache : ReportCache) (reportPath : String) (config : Config) (source : String)
    (fs : FileSystem) : Option ScanReport × FileSystem :=
  let path := cache.entryPath reportPath
  match fs.readText path with
  | .error _ => (none, fs)
  | .ok text =>
    match Json.decodeText CacheEntry.decode text with
    | .error _ => (none, (fs.remove path).toOption.getD fs)
    | .ok entry => (if entry.hash = entryHash config source then some entry.report else none, fs)

/-- Keeps a report. -/
def set (cache : ReportCache) (reportPath : String) (config : Config) (source : String)
    (report : ScanReport) (fs : FileSystem) : FileSystem :=
  let entry : CacheEntry := ⟨entryHash config source, report⟩
  (fs.write (cache.entryPath reportPath) (.text entry.encode.text)).toOption.getD fs

end ReportCache

end ComponentScan
