import ComponentScan.Error
import ComponentScan.Text.Split

/-!
# File systems

A file system is a finite map from places to entries. A place is the list of the names that lead to
it from the root, without `.` and `..`; a path is the text that names a place, seen from the current
directory. Following a path goes name by name and needs a directory at every step, so that a slash
behind the name of a file is an error.
-/

namespace ComponentScan

/-- The names that lead to an entry from the root. -/
abbrev Place := List String

inductive Entry
  | directory
  /-- A file that holds the UTF-8 form of a text. -/
  | text (content : String)
  /-- A file whose bytes are no UTF-8 text. -/
  | bytes (content : List UInt8)
  deriving Repr, DecidableEq, Inhabited

namespace Entry

/-- The file that holds some bytes. -/
def ofBytes (content : List UInt8) : Entry :=
  match String.fromUTF8? ⟨content.toArray⟩ with
  | some s => text s
  | none => bytes content

def isDirectory : Entry → Bool
  | directory => true
  | _ => false

end Entry

structure FileSystem where
  entries : List (Place × Entry)
  /-- The directory from which relative paths are seen. -/
  current : Place
  deriving Repr, DecidableEq, Inhabited

/-- What an access of the file system yields. -/
abbrev Access (α : Type) := Except AccessProblem α

namespace FileSystem

/-- An empty file system whose only directory besides the root is the current one. -/
def empty : FileSystem where
  entries := [(["workspace"], .directory)]
  current := ["workspace"]

/-! ## Places -/

/-- The entry at a place; the root is a directory. -/
def entry? (fs : FileSystem) (place : Place) : Option Entry :=
  if place = [] then some .directory else fs.entries.lookup place

/-- Sets the entry at a place. -/
def put (fs : FileSystem) (place : Place) (e : Entry) : FileSystem :=
  { fs with entries := (place, e) :: fs.entries.filter (·.1 ≠ place) }

/-- Removes the entry at a place and everything below it. -/
def erase (fs : FileSystem) (place : Place) : FileSystem :=
  { fs with entries := fs.entries.filter fun (p, _) => !place.isPrefixOf p }

/-- The names of the entries of a directory, in order. -/
def names (fs : FileSystem) (place : Place) : List String :=
  let below := fs.entries.filterMap fun (p, _) =>
    if p.dropLast = place then p.getLast? else none
  below.mergeSort fun a b => decide (a ≤ b)

/-- The names in a path; empty ones stand for repeated or closing slashes. -/
def pathNames (path : String) : List String :=
  (Text.splitWhere (· == '/') path.toList).map String.ofList

/-- The place from which a path is seen. -/
def base (fs : FileSystem) (path : String) : Place :=
  if path.toList.head? = some '/' then [] else fs.current

/-! ## Following paths -/

/-- The place that a name leads to from a place. -/
def step (place : Place) (name : String) : Place :=
  if name = "" ∨ name = "." then place
  else if name = ".." then place.dropLast
  else place ++ [name]

/-- Follows names from a place that has to exist. -/
def follow (fs : FileSystem) (place : Place) : List String → Access (Place × Entry)
  | [] =>
    match fs.entry? place with
    | some e => .ok (place, e)
    | none => .error .notFound
  | name :: rest =>
    match fs.entry? place with
    | some .directory => fs.follow (step place name) rest
    | some _ => .error .notADirectory
    | none => .error .notFound

/-- The place and the entry that a path names; no path is empty. -/
def locate (fs : FileSystem) (path : String) : Access (Place × Entry) :=
  if path = "" then .error .notFound else fs.follow (fs.base path) (pathNames path)

/-- The place that a path would name for a file that is missing: a new name in a directory. -/
def newTarget (fs : FileSystem) (path : String) : Access Place := do
  let (parent, _) ← fs.follow (fs.base path) ((pathNames path).dropLast ++ [""])
  let name := ((pathNames path).getLast?).getD ""
  if step parent name = parent ++ [name] then return parent ++ [name] else throw .notFound

/-- The place that a path names for a file that may be missing. -/
def target (fs : FileSystem) (path : String) : Access Place :=
  match fs.locate path with
  | .ok (_, .directory) => .error .isDirectory
  | .ok (place, _) => .ok place
  | .error .notFound => fs.newTarget path
  | .error problem => .error problem

/-! ## Access -/

/-- The text of a file. -/
def readText (fs : FileSystem) (path : String) : Access String := do
  match ← fs.locate path with
  | (_, .text s) => return s
  | (_, .directory) => throw .isDirectory
  | (_, .bytes _) => throw .notUtf8

/-- Writes a file, which may exist, in a directory that exists. -/
def write (fs : FileSystem) (path : String) (file : Entry) : Access FileSystem := do
  return fs.put (← fs.target path) file

/-- Makes the directories that names lead through from a place; what exists must be a directory. -/
def makeDirectories (fs : FileSystem) (place : Place) : List String → Access FileSystem
  | [] =>
    match fs.entry? place with
    | none => .ok (fs.put place .directory)
    | some .directory => .ok fs
    | some _ => .error .alreadyExists
  | name :: rest =>
    match fs.entry? place with
    | none => (fs.put place .directory).makeDirectories (step place name) rest
    | some .directory => fs.makeDirectories (step place name) rest
    | some _ =>
      if (name :: rest).all (· = "") then .error .alreadyExists else .error .notADirectory

/-- Makes the directory that a path names, and those above it. -/
def createDirectories (fs : FileSystem) (path : String) : Access FileSystem :=
  if path = "" then .ok fs else fs.makeDirectories (fs.base path) (pathNames path)

/-- The names in the directory that a path names. -/
def list (fs : FileSystem) (path : String) : Access (List String) := do
  match ← fs.locate path with
  | (place, .directory) => return fs.names place
  | _ => throw .notADirectory

/-- Removes the file or the whole directory that a path names. -/
def remove (fs : FileSystem) (path : String) : Access FileSystem := do
  let (place, _) ← fs.locate path
  return fs.erase place

end FileSystem

end ComponentScan
