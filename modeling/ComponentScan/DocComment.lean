import ComponentScan.Text.Blank
import ComponentScan.Text.Bytes
import ComponentScan.Text.IdentifierChar

/-!
# Documentation comments

A documentation comment is a block comment that opens with `/**`. Its text is taken line by line,
each line without its margin: white space, one asterisk, and one space after that. A line whose rest
starts with `@` and a tag name opens a tag; the lines before the first tag are the description, and
each line after it belongs to the tag before it.
-/

namespace ComponentScan

open Text

/-- A tag with its name, its text and the place from its `@` to the end of its last line. -/
structure DocTag where
  name : String
  text : String
  span : Span
  deriving Repr, DecidableEq, Inhabited

structure DocComment where
  /-- The comment with its delimiters. -/
  span : Span
  description : String
  tags : List DocTag
  deriving Repr, DecidableEq, Inhabited

namespace DocComment

/-- Whether a text is a whole documentation comment. -/
def isWhole (s : List Char) : Bool :=
  "/**".toList.isPrefixOf s && "*/".toList.isSuffixOf s && byteLength s ≥ 5 &&
    !"/**/".toList.isPrefixOf s

/-- Whether a text may stand between the delimiters of a documentation comment. -/
def isContent (s : List Char) : Bool :=
  ['*'].isPrefixOf s && !"*/".toList.isPrefixOf s

/-- The span of the documentation comment that `span` covers with its delimiters or without them. -/
def spanOf? (source : List Char) (span : Span) : Option Span := do
  let text ← slice? source span.start span.stop
  if isWhole text then return span
  let opened := span.start ≥ 2 && slice? source (span.start - 2) span.start == some "/*".toList
  let closed := slice? source span.stop (span.stop + 2) == some "*/".toList
  if opened && closed && isContent text then return ⟨span.start - 2, span.stop + 2⟩ else none

/-! ## Lines -/

/-- The bytes dropped at the start of a line as its margin, and the rest. The white space before a
tag belongs to the margin. -/
def stripMargin (line : List Char) : Nat × List Char :=
  let trimmed := trimStart line
  let content := match trimmed with
    | '*' :: ' ' :: r => r
    | '*' :: r => r
    | _ => trimmed
  let bare := trimStart content
  let content := if bare.head? == some '@' then bare else content
  (byteLength line - byteLength content, content)

/-- A character of a tag name. -/
def isTagChar (c : Char) : Bool :=
  isAsciiLetter c || isAsciiDigit c || c == '_' || c == '-'

/-- The name of the tag that a line opens and the text after the name. -/
def splitTag? (content : List Char) : Option (List Char × List Char) := do
  let body ← dropStart? ['@'] content
  let (name, rest) := body.span isTagChar
  if name.isEmpty then none else some (name, rest)

/-- Adds a line to a text; nothing is put between an empty text and its first line. -/
def addLine (text line : List Char) : List Char :=
  if text.isEmpty then line else text ++ '\n' :: line

/-- A tag being read. -/
structure OpenTag where
  name : List Char
  text : List Char
  span : Span

/-- What has been read so far: the description, and the tags, the latest first. -/
structure Draft where
  description : List Char := []
  tags : List OpenTag := []

/-- A line without its line end. -/
def dropLineEnd (segment : List Char) : List Char :=
  (segment.reverse.dropWhile fun c => c == '\n' || c == '\r').reverse

/-- Takes the line that stands at byte `offset`. -/
def Draft.takeLine (draft : Draft) (offset : Nat) (segment : List Char) : Draft :=
  let (margin, content) := stripMargin (dropLineEnd segment)
  let start := offset + margin
  let stop := start + byteLength (trimEnd content)
  match splitTag? content with
  | some (name, rest) =>
    { draft with tags := ⟨name, trim rest, ⟨start, stop⟩⟩ :: draft.tags }
  | none =>
    let line := trim content
    match draft.tags with
    | tag :: earlier =>
      if line.isEmpty then draft
      else
        let tag := { tag with text := addLine tag.text line, span := ⟨tag.span.start, stop⟩ }
        { draft with tags := tag :: earlier }
    | [] => { draft with description := addLine draft.description line }

/-- Takes lines one after the other from byte `offset` on. -/
def Draft.takeLines (draft : Draft) (offset : Nat) : List (List Char) → Draft
  | [] => draft
  | segment :: rest =>
    (draft.takeLine offset segment).takeLines (offset + byteLength segment) rest

/-- The text between the delimiters of the comment at `span`. -/
def inner (source : List Char) (span : Span) : List Char :=
  let start := span.start + 3
  (slice? source start (max (span.stop - 2) start)).getD []

/-- Reads the documentation comment at `span`, which includes its delimiters. -/
def parse (source : List Char) (span : Span) : DocComment :=
  let draft := ({} : Draft).takeLines (span.start + 3) (segments (inner source span))
  { span
    description := String.ofList (trim draft.description)
    tags := draft.tags.reverse.map fun t =>
      ⟨String.ofList t.name, String.ofList t.text, t.span⟩ }

end DocComment

end ComponentScan
