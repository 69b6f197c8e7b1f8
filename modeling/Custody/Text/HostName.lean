import Custody.Text.Printable

/-!
# Names of hosts

A name of a host that is not ASCII is made of labels with dots between them. A label has letters,
digits and hyphens; symbols, and signs that only vary a letter, have no place in one. The long runs of
such signs are listed here.

> `isLabel_ne_nil`: no label is empty.
-/

namespace Custody.Text

/-- First and last code point of the long runs of signs that stand in no label. -/
def symbolRanges : List (Nat × Nat) :=
  [(128, 182), (184, 222), (722, 747), (751, 767), (1536, 1551), (1792, 1807), (4039, 4058),
   (4960, 4988), (6128, 6154), (6618, 6655), (7002, 7018), (7294, 7367), (7484, 7501), (7503, 7530),
   (7579, 7615), (8061, 8111), (8183, 8203), (8206, 8384), (8448, 8525), (8527, 8579), (8581, 11311),
   (11776, 11822), (11824, 12292), (12296, 12329), (12593, 12703), (12736, 12771), (12800, 13311),
   (19904, 19967), (42128, 42182), (42738, 42774), (43881, 43967), (55296, 64013), (64042, 64285),
   (64287, 65023), (65072, 65138), (65140, 65533), (65792, 66044), (66273, 66299), (67457, 67514),
   (68032, 68095), (68160, 68184), (68505, 68527), (69216, 69246), (69703, 69733), (70109, 70132),
   (71105, 71127), (72794, 72817), (73664, 73727), (74752, 74868), (93824, 93850), (118608, 119140),
   (119180, 119209), (119214, 119361), (119365, 121343), (125278, 130041), (194560, 195101),
   (917505, 917631)]

/-- Whether a character may stand in a label. -/
def isLabelChar (c : Char) : Bool :=
  if c.toNat < 128 then c.isLower || c.isDigit || c = '-'
  else isPrintable c && !symbolRanges.any fun r => r.1 ≤ c.toNat && c.toNat ≤ r.2

/-- Whether characters are a label: hyphens stand inside, and not as the third and the fourth
character. -/
def isLabel (cs : List Char) : Bool :=
  !cs.isEmpty && cs.length ≤ 63 && cs.all isLabelChar && cs.head? != some '-' &&
    cs.getLast? != some '-' && (cs.drop 2).take 2 != ['-', '-']

/-- The dots between labels. -/
def isLabelDot (c : Char) : Bool := c ∈ ['.', '\u3002', '\uFF0E', '\uFF61']

/-- Whether characters are the name of a host. A dot may follow the last label. -/
def isHostName (cs : List Char) : Bool :=
  let labels := cs.splitOnP isLabelDot
  let labels := if labels.getLast? = some [] then labels.dropLast else labels
  !labels.isEmpty && labels.all isLabel

theorem isLabel_ne_nil {cs : List Char} (h : isLabel cs = true) : cs ≠ [] := by
  intro hc
  simp [isLabel, hc] at h

end Custody.Text
