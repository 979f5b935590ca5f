import ComponentScan.Text.Split

/-!
# White space

The white space of this library is the Unicode property White_Space. It decides what is trimmed,
where words end, and what is left out of compact text.
-/

namespace ComponentScan.Text

/-- A character with the property White_Space. -/
def isBlank (c : Char) : Bool :=
  let n := c.val
  (0x09 ≤ n && n ≤ 0x0D) || n == 0x20 || n == 0x85 || n == 0xA0 || n == 0x1680 ||
    (0x2000 ≤ n && n ≤ 0x200A) || n == 0x2028 || n == 0x2029 || n == 0x202F || n == 0x205F ||
    n == 0x3000

/-- The text without the white space at its start. -/
def trimStart (s : List Char) : List Char :=
  s.dropWhile isBlank

/-- The text without the white space at its end. -/
def trimEnd (s : List Char) : List Char :=
  (s.reverse.dropWhile isBlank).reverse

/-- The text without the white space at both ends. -/
def trim (s : List Char) : List Char :=
  trimEnd (trimStart s)

/-- The maximal pieces without white space. -/
def words (s : List Char) : List (List Char) :=
  (splitWhere isBlank s).filter (!·.isEmpty)

/-- The text without any white space. -/
def compact (s : List Char) : List Char :=
  s.filter (!isBlank ·)

/-- The words of the text with one space between them. -/
def singleSpaced (s : List Char) : List Char :=
  joinWith [' '] (words s)

end ComponentScan.Text
