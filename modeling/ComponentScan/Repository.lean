import ComponentScan.FileSystem
import ComponentScan.Remote
import ComponentScan.Report.Basic
import ComponentScan.Text.Blank

/-!
# Repository metadata

The metadata of a checkout are the commit that its `HEAD` names and the address of its remote
`origin`. They are read from the repository data of the nearest directory at or above the root of
the scan, `.git` or the directory itself, that has a `HEAD`, objects and references. Whatever is
missing has a placeholder.
-/

namespace ComponentScan.Repository

open Text

/-! ## Finding the repository -/

/-- The text of a file at a place. -/
def textAt? (fs : FileSystem) (place : Place) : Option String :=
  match fs.entry? place with
  | some (.text s) => some s
  | _ => none

/-- A hexadecimal digit. -/
def isHexDigit (c : Char) : Bool :=
  ('0' ≤ c && c ≤ '9') || ('a' ≤ c && c ≤ 'f') || ('A' ≤ c && c ≤ 'F')

/-- The name of the commit at the start of a text: forty hexadecimal digits, in lower case, that
white space or nothing follows. -/
def commit? (s : List Char) : Option String :=
  let (name, rest) := (s.take 40, s.drop 40)
  if name.length = 40 && name.all isHexDigit && rest.head?.all isBlank then
    some (String.ofList (name.map Char.toLower))
  else none

/-- The reference that a text stands for. -/
def symbolicReference? (s : List Char) : Option (List Char) := do
  let name := trim (← dropStart? "ref:".toList s)
  if "refs/".toList.isPrefixOf name then some name else none

/-- Whether a directory holds the data of a repository. -/
def isRepository (fs : FileSystem) (place : Place) : Bool :=
  let head := textAt? fs (place ++ ["HEAD"])
  let hasHead := head.any fun s =>
    (symbolicReference? s.toList).isSome ||
      ((s.toList.take 40).length = 40 && (s.toList.take 40).all isHexDigit)
  hasHead && fs.entry? (place ++ ["objects"]) = some .directory &&
    fs.entry? (place ++ ["refs"]) = some .directory

/-- The repository data of the nearest of some directories. -/
def search? (fs : FileSystem) (places : List Place) : Option Place :=
  (places.flatMap fun p => [p ++ [".git"], p]).find? (isRepository fs)

/-- A place and those above it down to a depth, the nearest first. -/
def upTo (depth : Nat) (place : Place) : List Place :=
  ((List.range (place.length + 1)).filter (depth ≤ ·)).reverse.map place.take

/-- The repository data for a directory. The search does not leave the current directory. -/
def find? (fs : FileSystem) (root : String) : Option Place :=
  let found := if root = "" then fs.follow fs.current [] else fs.locate root
  match found with
  | .ok (place, .directory) => search? fs (upTo fs.current.length place)
  | _ => none

/-! ## Settings -/

/-- A setting: its section, its subsection and its name, and its value. -/
structure Setting where
  sectionName : String
  subsection : Option String
  name : String
  value : String
  deriving Repr, DecidableEq, Inhabited

/-- A character of the name of a section or setting. -/
def isNameChar (c : Char) : Bool :=
  c.isAlphanum || c == '-'

/-- Reads a quoted subsection after its opening quote, and the text after the closing one. -/
def quotedName? : List Char → Option (List Char × List Char)
  | [] => none
  | '"' :: r => some ([], r)
  | '\n' :: _ => none
  | '\\' :: c :: r => (quotedName? r).map fun (name, rest) => (c :: name, rest)
  | c :: r => (quotedName? r).map fun (name, rest) => (c :: name, rest)

/-- Reads the header of a section after its opening bracket. -/
def header? (s : List Char) : Option ((String × Option String) × List Char) := do
  let (name, rest) := s.span fun c => isNameChar c || c == '.'
  let name := String.ofList (name.map Char.toLower)
  match rest.dropWhile isBlank with
  | ']' :: r => return ((name, none), r)
  | '"' :: r =>
    let (sub, r) ← quotedName? r
    let r ← dropStart? [']'] r
    return ((name, some (String.ofList sub)), r)
  | _ => none

/-- Reads a value: it ends at the end of the line or at a comment, quotes protect what is between
them, and a backslash escapes a character or the end of the line. White space at the end is dropped
unless it is quoted; `gap` is the white space since the last other character. -/
def value? (quoted : Bool) (gap : List Char) : List Char → Option (List Char × List Char)
  | [] => if quoted then none else some ([], [])
  | '\n' :: r => if quoted then none else some ([], r)
  | '\\' :: '\n' :: r => value? quoted gap r
  | '\\' :: c :: r => do
    let c ← match c with
      | 'n' => some '\n'
      | 't' => some '\t'
      | 'b' => some (Char.ofNat 8)
      | '"' => some '"'
      | '\\' => some '\\'
      | _ => none
    let (value, rest) ← value? quoted [] r
    return (gap ++ c :: value, rest)
  | '"' :: r => do
    let (value, rest) ← value? (!quoted) [] r
    return (gap ++ value, rest)
  | c :: r =>
    if !quoted && isBlank c then value? quoted (gap ++ [c]) r
    else if !quoted && (c == '#' || c == ';') then
      some ([], (r.dropWhile (· ≠ '\n')).drop 1)
    else do
      let (value, rest) ← value? quoted [] r
      return (gap ++ c :: value, rest)

/-- Reads settings one after the other; every step takes at least one character. -/
def settings? : (fuel : Nat) → (String × Option String) → List Char → Option (List Setting)
  | 0, _, _ => some []
  | fuel + 1, header, s =>
    match s.dropWhile isBlank with
    | [] => some []
    | '#' :: r => settings? fuel header (r.dropWhile (· ≠ '\n'))
    | ';' :: r => settings? fuel header (r.dropWhile (· ≠ '\n'))
    | '[' :: r => do
      let (header, r) ← header? r
      settings? fuel header r
    | c :: r => do
      if !c.isAlpha then none
      let (name, rest) := (c :: r).span isNameChar
      let rest := rest.dropWhile fun c => c == ' ' || c == '\t'
      let (value, rest) ← match rest with
        | '=' :: r => value? false [] (r.dropWhile fun c => c == ' ' || c == '\t')
        | '\n' :: r => some ([], r)
        | [] => some ([], [])
        | _ => none
      let others ← settings? fuel header rest
      return ⟨header.1, header.2, String.ofList (name.map Char.toLower), String.ofList value⟩ ::
        others

/-- The settings in a text, if it is well formed. -/
def readSettings? (s : List Char) : Option (List Setting) :=
  settings? (s.length + 1) ("", none) s

/-- The address of the remote `origin`: the last one counts. -/
def originOf? (settings : List Setting) : Option String :=
  ((settings.filter fun s =>
    s.sectionName == "remote" && s.subsection == some "origin" && s.name == "url").getLast?).map
    (·.value)

/-! ## Metadata -/

/-- Follows references at most `steps` times until a commit is named. -/
def resolveReference? (fs : FileSystem) (git : Place) : (steps : Nat) → List Char → Option String
  | 0, _ => none
  | steps + 1, s =>
    match symbolicReference? s with
    | some name => do
      let target ← textAt? fs (git ++ FilePath.parts (String.ofList name))
      resolveReference? fs git steps target.toList
    | none => commit? s

/-- The commit that is checked out. -/
def revision? (fs : FileSystem) (git : Place) : Option String := do
  resolveReference? fs git 6 (← textAt? fs (git ++ ["HEAD"])).toList

/-- The canonical address of the remote. -/
def remote? (settings : List Setting) : Option String := do
  let url := trim (← originOf? settings).toList
  if url.isEmpty then none else some (canonicalRemote (String.ofList url))

/-- The metadata of the checkout around a directory. -/
def metadata (fs : FileSystem) (root : String) : RepoMetadata :=
  let found := do
    let git ← find? fs root
    let settings ← readSettings? ((textAt? fs (git ++ ["config"])).getD "").toList
    return (git, settings)
  match found with
  | none => .placeholder
  | some (git, settings) =>
    { revision := (revision? fs git).getD RepoMetadata.placeholder.revision
      remoteOrigin := (remote? settings).getD RepoMetadata.placeholder.remoteOrigin }

end ComponentScan.Repository
