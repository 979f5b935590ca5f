import ComponentScan.Text.Blank

/-!
# Permalinks

The permalink of a cross-reference tag is the first word of its text, if that is a web address.
-/

namespace ComponentScan

/-- Whether a word is `http://` or `https://` and at least one more character. -/
def isWebAddress (word : List Char) : Bool :=
  let tails := [Text.dropStart? "http://".toList word, Text.dropStart? "https://".toList word]
  tails.any fun tail => tail.any fun rest => !rest.isEmpty && rest.all (!Text.isBlank ·)

/-- The permalink in the text of a tag. -/
def parsePermalink (tagText : String) : Option String := do
  let word ← (Text.words tagText.toList).head?
  if isWebAddress word then some (String.ofList word) else none

end ComponentScan
