import Custody.Text.Case

/-!
# Search patterns

A search text is matched as a pattern in which `%` stands for any run of characters and `_` for
any one of them. Letters `A` to `Z` match their small forms, and the last two code points of the first
plane match the replacement character and each other; every other character matches itself alone. A NUL
ends a pattern and a text alike. A pattern that is too long is not matched at all.

The text is gone through once. After each character a row tells, for every piece of the pattern from
its start, whether that piece matches what has been read.
-/

namespace Custody.Text

/-- A character as the store reads it: the replacement character in the place of two code points. -/
def legible (c : Char) : Char := if c = '\uFFFE' ∨ c = '\uFFFF' then '\uFFFD' else c

/-- A character as it is compared with others. -/
def likeFold (c : Char) : Char := legible (foldAscii c)

/-- Whether a sign of a pattern, other than that for any run, stands for a character. -/
def signMatches (sign c : Char) : Bool := sign = '_' || likeFold sign = likeFold c

/-- The row before the first character: `here` tells of the piece in front of the pattern. -/
def firstRow (here : Bool) : List Char → List Bool
  | [] => [here]
  | q :: p => here :: firstRow (q = '%' && here) p

/-- The row after one more character: `here` tells of the piece in front of the pattern, and the old
row begins with the same piece. -/
def nextRow (c : Char) (here : Bool) : List Char → List Bool → List Bool
  | q :: p, old :: rest =>
    let longer := rest.headD false
    here :: nextRow c (if q = '%' then here || longer else old && signMatches q c) p rest
  | _, _ => [here]

/-- Whether a whole text matches a pattern. -/
def matchesPattern (pattern text : List Char) : Bool :=
  (text.foldl (fun row c => nextRow c false pattern row) (firstRow true pattern)).getLastD false

/-- The characters in front of the first NUL. -/
def beforeNul (s : String) : List Char := s.toList.takeWhile (· != '\x00')

/-- The pattern of a search text, which any run of characters may surround. -/
def searchPattern (search : String) : String := "%" ++ search ++ "%"

/-- The most bytes of a pattern. -/
def patternBytesMost : Nat := 50000

/-- Whether the pattern of a search text is short enough. -/
def isSearchable (search : String) : Bool := (searchPattern search).utf8ByteSize ≤ patternBytesMost

/-- Whether some piece of a text matches a search text. -/
def containsPattern (search text : String) : Bool :=
  matchesPattern (beforeNul (searchPattern search)) (beforeNul text)

example : containsPattern "a_c" "xABCx" = true := by decide +kernel

end Custody.Text
