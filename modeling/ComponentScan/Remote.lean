import ComponentScan.Text.Blank
import ComponentScan.Text.WordChar

/-!
# Remote addresses

`canonicalRemote` writes the address of a repository as `https://<host>/<path>`, without
credentials, port, closing `.git` or closing slash. It knows two forms, `<user>@<host>:<path>` and
`<scheme>://[<user>@]<host>[:<port>]/<path>`; any other address loses its closing slashes only.
-/

namespace ComponentScan

open Text

namespace Remote

/-- What may stand at the end of a path without belonging to it, the longest first. -/
def pathEnds : List (List Char) :=
  [".git/".toList, ".git".toList, ['/'], []]

/-- A path of at least one character and one line, without what stands at its end. -/
def path? (s : List Char) : Option (List Char) :=
  let p := pathEnds.firstM fun tail => (dropEnd? tail s).filter (!·.isEmpty)
  p.filter fun p => !p.contains '\n'

/-- A character of a user or host in the short form. -/
def isNameChar (c : Char) : Bool :=
  isWordChar c || c == '.' || c == '-'

/-- The canonical form of an address in the short form. -/
def short? (s : List Char) : Option (List Char) := do
  let (user, rest) := s.span isNameChar
  let host ← dropStart? ['@'] rest
  let (host, rest) := host.span isNameChar
  if user.isEmpty || host.isEmpty then none
  let path ← dropStart? [':'] rest
  return host ++ '/' :: (← path? path)

/-- The schemes of the long form. -/
def schemes : List (List Char) :=
  ["ssh://".toList, "git://".toList, "http://".toList, "https://".toList]

/-- Reads `<host>[:<port>]/<path>`. -/
def hostAndPath? (s : List Char) : Option (List Char) := do
  let (host, rest) := s.span fun c => c ≠ '/' && c ≠ ':'
  if host.isEmpty then none
  let rest ← match rest with
    | ':' :: r =>
      let (port, rest) := r.span isDecimalDigit
      if port.isEmpty then none else some rest
    | _ => some rest
  let path ← dropStart? ['/'] rest
  return host ++ '/' :: (← path? path)

/-- The text after `<user>@`. -/
def afterUser? (s : List Char) : Option (List Char) :=
  let (user, rest) := s.span fun c => c ≠ '/' && c ≠ '@'
  if user.isEmpty then none else dropStart? ['@'] rest

/-- The canonical form of an address in the long form; what looks like a user is one if the rest is
an address then. -/
def long? (s : List Char) : Option (List Char) := do
  let rest ← schemes.firstM fun scheme => dropStart? scheme s
  ((afterUser? rest).bind hostAndPath?) <|> hostAndPath? rest

end Remote

/-- The canonical form of a remote address. -/
def canonicalRemote (url : String) : String :=
  let s := trim url.toList
  match Remote.short? s <|> Remote.long? s with
  | some place => String.ofList ("https://".toList ++ place)
  | none => String.ofList (s.reverse.dropWhile (· == '/')).reverse

end ComponentScan
