/-!
# Blanks

The characters that count as blank at the ends of a text: the Unicode spaces and, where they are
taken in as well, the four separators of the control range.
-/

namespace Custody.Text

/-- First and last code point of every run of spaces. -/
def spaceRanges : List (Nat × Nat) :=
  [(9, 13), (32, 32), (133, 133), (160, 160), (5760, 5760), (8192, 8202), (8232, 8233),
   (8239, 8239), (8287, 8287), (12288, 12288)]

/-- A character is a space when its code point lies in one of the runs. -/
def isSpace (c : Char) : Bool :=
  spaceRanges.any fun r => r.1 ≤ c.toNat && c.toNat ≤ r.2

/-- A blank is a space or one of the separators. -/
def isBlank (c : Char) : Bool := isSpace c || (28 ≤ c.toNat && c.toNat ≤ 31)

/-- The text without the characters of a kind at its two ends. -/
def trimBy (p : Char → Bool) (cs : List Char) : List Char :=
  ((cs.dropWhile p).reverse.dropWhile p).reverse

/-- The text without the blanks at its two ends. -/
def trim (cs : List Char) : List Char := trimBy isBlank cs

/-- The text without the spaces at its two ends; a separator stays. -/
def trimSpaces (cs : List Char) : List Char := trimBy isSpace cs

end Custody.Text
