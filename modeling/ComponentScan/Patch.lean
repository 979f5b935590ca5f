import ComponentScan.Text.Blank
import ComponentScan.Text.WordChar

/-!
# Back-patching

`patchLine` puts a permalink behind the first cross-reference tag of a line, in place of the word
that follows the tag. A tag ends at a word boundary, so a longer tag does not count, and the word
must not start with an asterisk, so that a comment that closes there stays closed. Everything else
on the line stays.

`patchText` patches one line of a text. The lines before and after it and its own line end stay.
-/

namespace ComponentScan

/-- What a collaborator that keeps artifacts says about an annotation: the written location of its
tag and the permalink of its artifact. -/
structure CrossReferenceUpdate where
  sourceLocation : String
  permalink : String
  deriving Repr, DecidableEq, Inhabited

/-- What a back-patch came to. -/
inductive PatchOutcome
  | patched
  /-- The line carries the permalink already. -/
  | unchanged
  | tagNotFound
  deriving Repr, DecidableEq, Inhabited

namespace Patch

open Text

/-! ## One line -/

/-- Whether a word ends or starts between two neighbours, either of which may be missing. -/
def isWordBoundary (before after : Option Char) : Bool :=
  before.any isWordChar != after.any isWordChar

/-- What follows the word behind a tag: spaces or tabs, then a character that is neither white space
nor an asterisk, then everything up to white space. Without such a word, what follows the tag. -/
def afterArgument (s : List Char) : List Char :=
  let (gap, rest) := s.span fun c => c == ' ' || c == '\t'
  match gap, rest with
  | _ :: _, c :: r => if isBlank c || c == '*' then s else r.dropWhile (!isBlank ·)
  | _, _ => s

/-- The text after the tag `@tag` and its argument, if the text starts with that tag. -/
def afterTag? (tag : List Char) (s : List Char) : Option (List Char) := do
  let rest ← dropStart? ('@' :: tag) s
  if isWordBoundary ('@' :: tag).getLast? rest.head? then some (afterArgument rest) else none

/-- The text before the first tag and the text after it and its argument. -/
def findTag? (tag : List Char) : List Char → Option (List Char × List Char)
  | [] => none
  | c :: r =>
    match afterTag? tag (c :: r) with
    | some after => some ([], after)
    | none => (findTag? tag r).map fun (before, after) => (c :: before, after)

/-- The line with the permalink behind its first tag, if it has one. The name of the tag is taken
character by character, whatever it is: there is no name that cannot be looked for, so the error for
such a name has no place here. -/
def patchLine (line tag permalink : List Char) : Option (List Char) :=
  (findTag? tag line).map fun (before, after) =>
    before ++ '@' :: tag ++ ' ' :: permalink ++ after

/-! ## One line of a text -/

/-- A line and its line end: a line feed, a carriage return, both, or nothing. -/
def splitEnding (segment : List Char) : List Char × List Char :=
  let line := (dropEnd? ['\n'] segment).getD segment
  let line := (dropEnd? ['\r'] line).getD line
  (line, segment.drop line.length)

/-- Patches the line `index` of the lines of a text, counted from 0: what it comes to and the new
text. There is no result if there is no such line. -/
def patchSegment? (tag permalink : List Char) (index : Nat) (lines : List (List Char)) :
    Option (PatchOutcome × List Char) := do
  let (line, ending) := splitEnding (← lines[index]?)
  match patchLine line tag permalink with
  | none => return (.tagNotFound, lines.flatten)
  | some patched =>
    if patched = line then return (.unchanged, lines.flatten)
    else return (.patched, (lines.take index).flatten ++ patched ++ ending ++
      (lines.drop (index + 1)).flatten)

/-- The number of lines that can be patched. -/
def lineCount (text : List Char) : Nat :=
  (segments text).length

/-- Patches a line of a text, counted from 1. -/
def patchText? (tag permalink : List Char) (line : Nat) (text : List Char) :
    Option (PatchOutcome × List Char) :=
  patchSegment? tag permalink (line - 1) (segments text)

end Patch

end ComponentScan
