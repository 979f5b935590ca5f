/-!
# Failures

The causes for which a scan, a back-patch or a request fails. Names the scanner cannot resolve,
detectors that do not match and missing repository metadata are no failures: they leave
placeholders in the report.
-/

namespace ComponentScan

/-- Why a JSON text is no value of the wanted type: it ends inside a value, it is not JSON, or it is
JSON of another shape. -/
inductive JsonProblem
  | eof | notJson | wrongShape
  deriving Repr, DecidableEq, Inhabited

/-- Why the file system refused an access. -/
inductive AccessProblem
  | notFound | isDirectory | notADirectory | alreadyExists | notUtf8
  deriving Repr, DecidableEq, Inhabited

/-- What the operating system says about a refused access. -/
def AccessProblem.text : AccessProblem → String
  | .notFound => "No such file or directory (os error 2)"
  | .isDirectory => "Is a directory (os error 21)"
  | .notADirectory => "Not a directory (os error 20)"
  | .alreadyExists => "File exists (os error 17)"
  | .notUtf8 => "stream did not contain valid UTF-8"

/-- The fatal failures. -/
inductive ScanError
  /-- The file at `path` could not be read or written. -/
  | access (path : String) (problem : AccessProblem)
  | notAFile (path : String)
  /-- The source is not a program. -/
  | unparsable (path : String)
  /-- No rule names the node, whose text is `text`. -/
  | unresolvableIdentity (kind text : String)
  | unexpectedShape (kind text expected : String)
  | malformedLocation (text : String)
  | invalidLine (location line : String)
  | lineOutOfRange (path : String) (line lineCount : Nat)
  | invalidConfig (problem : JsonProblem)
  deriving Repr, DecidableEq, Inhabited

namespace ScanError

/-- The stable code of the category of a failure. -/
def code : ScanError → String
  | access .. => "CC-ERR-IO-001"
  | notAFile _ => "CC-ERR-IO-002"
  | unparsable _ => "CC-ERR-PARSE-001"
  | unresolvableIdentity .. => "CC-ERR-IDENTITY-001"
  | unexpectedShape .. => "CC-ERR-SHAPE-001"
  | malformedLocation _ => "CC-ERR-LOCATION-001"
  | invalidLine .. => "CC-ERR-LOCATION-002"
  | lineOutOfRange .. => "CC-ERR-LOCATION-003"
  | invalidConfig _ => "CC-ERR-CONFIG-001"

/-- The wording of a failure. -/
def message : ScanError → String
  | access path problem => s!"failed to access {path}: {problem.text}"
  | notAFile path => s!"{path} is not a regular file"
  | unparsable path => s!"failed to parse {path}"
  | unresolvableIdentity kind text => s!"unresolvable identity for {kind} node \x60{text}\x60"
  | unexpectedShape kind text expected => s!"unexpected {kind} shape \x60{text}\x60: {expected}"
  | malformedLocation text =>
    s!"malformed source location \x60{text}\x60, expected <path>#L<start>[-<end>]"
  | invalidLine location line =>
    s!"invalid line number \x60{line}\x60 in source location \x60{location}\x60"
  | lineOutOfRange path line lineCount =>
    s!"line {line} is past the end of {path} ({lineCount} lines)"
  | invalidConfig .eof => "invalid scan options: the text ends inside a value"
  | invalidConfig .notJson => "invalid scan options: not JSON"
  | invalidConfig .wrongShape => "invalid scan options: a value of the wrong shape"

end ScanError

end ComponentScan
