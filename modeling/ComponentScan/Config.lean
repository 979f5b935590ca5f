import ComponentScan.FilePath
import ComponentScan.Json.Decode

/-!
# Options

The options that every scan and back-patch share. They are read from a JSON object in which every
field may be missing.
-/

namespace ComponentScan

structure Config where
  /-- The directory against which relative paths are resolved. -/
  repositoryRoot : String := "."
  /-- The documentation tag that links a declaration to an artifact. -/
  crossReferenceTag : String := "canvas"
  /-- The tags of pending work, compared without regard to ASCII case. -/
  pendingWorkTags : List String := ["todo", "fixme"]
  /-- The printed base classes that make a class a component. -/
  componentBaseClasses : List String :=
    ["React.Component", "Component", "React.PureComponent", "PureComponent"]
  /-- The printed callees that turn a dynamic import into a deferred component. -/
  lazyLoadCallees : List String := ["React.lazy", "lazy"]
  /-- Whether the repository is asked for its revision and remote. -/
  resolveRepository : Bool := true
  deriving Repr, DecidableEq, Inhabited

namespace Config

/-- The default options at another root. -/
def withRoot (root : String) : Config :=
  { repositoryRoot := root }

/-- The path of a file under the root. -/
def resolvePath (config : Config) (relative : String) : String :=
  FilePath.join config.repositoryRoot relative

/-- An ASCII letter in lower case; other characters stay. -/
def lowerAscii (c : Char) : Char :=
  if 'A' ≤ c ∧ c ≤ 'Z' then Char.ofNat (c.toNat + 32) else c

/-- Equality up to the case of ASCII letters. -/
def sameIgnoringCase (s t : String) : Bool :=
  s.toList.map lowerAscii == t.toList.map lowerAscii

/-- A tag that marks pending work. -/
def isPendingWorkTag (config : Config) (tag : String) : Bool :=
  config.pendingWorkTags.any (sameIgnoringCase · tag)

/-- The tag of cross-references. -/
def isCrossReferenceTag (config : Config) (tag : String) : Bool :=
  config.crossReferenceTag == tag

/-! ## JSON form -/

open Json Value in
/-- The fields of options. -/
def schema : Schema :=
  [field "repositoryRoot" asString, field "crossReferenceTag" asString,
    field "pendingWorkTags" (asList asString), field "componentBaseClasses" (asList asString),
    field "lazyLoadCallees" (asList asString), field "resolveRepository" asBool]

open Json Value in
/-- Decodes options; fields that are not given have their defaults. -/
def decode (v : Json.Value) : Json.Decoded Config := do
  let f ← asFields schema 0 v
  let default : Config := {}
  return {
    repositoryRoot := ← f.getD "repositoryRoot" asString default.repositoryRoot
    crossReferenceTag := ← f.getD "crossReferenceTag" asString default.crossReferenceTag
    pendingWorkTags := ← f.getD "pendingWorkTags" (asList asString) default.pendingWorkTags
    componentBaseClasses :=
      ← f.getD "componentBaseClasses" (asList asString) default.componentBaseClasses
    lazyLoadCallees := ← f.getD "lazyLoadCallees" (asList asString) default.lazyLoadCallees
    resolveRepository := ← f.getD "resolveRepository" asBool default.resolveRepository }

/-- Reads options from a JSON text. -/
def ofJson (text : String) : Except ScanError Config :=
  (Json.decodeText decode text).mapError .invalidConfig

/-- The JSON form of options, all fields given. -/
def encode (config : Config) : Json.Value :=
  let strings (l : List String) := Json.Value.array (l.map .string)
  .object [
    ("repositoryRoot", .string config.repositoryRoot),
    ("crossReferenceTag", .string config.crossReferenceTag),
    ("pendingWorkTags", strings config.pendingWorkTags),
    ("componentBaseClasses", strings config.componentBaseClasses),
    ("lazyLoadCallees", strings config.lazyLoadCallees),
    ("resolveRepository", .bool config.resolveRepository)]

end Config

end ComponentScan
