import PuzzleLang.Text.CodeRange

/-!
# White space

White space is what stripping removes from the ends of a text: the Unicode white-space characters
together with the four information separators.
-/

namespace PuzzleLang

/-- The code points of white space. -/
def blankRanges : CodeRanges :=
  [(9, 13), (28, 32), (133, 133), (160, 160), (5760, 5760), (8192, 8202), (8232, 8233),
   (8239, 8239), (8287, 8287), (12288, 12288)]

/-- Whether a character is white space. -/
def isBlank (c : Char) : Bool :=
  blankRanges.contains c.toNat

/-- A list of characters without the white space at its end. -/
def stripEnd (cs : List Char) : List Char :=
  (cs.reverse.dropWhile isBlank).reverse

/-- A list of characters without the white space at either end. -/
def strip (cs : List Char) : List Char :=
  stripEnd (cs.dropWhile isBlank)

end PuzzleLang
