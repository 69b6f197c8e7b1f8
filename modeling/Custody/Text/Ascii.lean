/-!
# ASCII

Headers carry only the characters of ASCII. Where another one stands in a text, a complaint points
to the first run of such characters.

> `foreignRun_eq_nil_iff`: a text has no such run exactly when it is ASCII.
-/

namespace Custody.Text

/-- Whether a character is one of ASCII. -/
def isAsciiChar (c : Char) : Bool := c.toNat < 128

/-- Whether a text has characters of ASCII only. -/
def isAscii (s : String) : Bool := s.toList.all isAsciiChar

/-- The number of characters in front of the first one that is not of ASCII. -/
def asciiFront (s : String) : Nat := (s.toList.takeWhile isAsciiChar).length

/-- The first run of characters that are not of ASCII. -/
def foreignRun (s : String) : List Char :=
  (s.toList.dropWhile isAsciiChar).takeWhile fun c => !isAsciiChar c

theorem foreignRun_eq_nil_iff {s : String} : foreignRun s = [] ↔ isAscii s = true := by
  unfold foreignRun isAscii
  induction s.toList with
  | nil => simp
  | cons c cs ih => by_cases h : isAsciiChar c = true <;> simp_all

end Custody.Text
