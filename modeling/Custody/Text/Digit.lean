/-!
# Decimal digits

Every script with a set of ten decimal digits has them at ten consecutive code points, so the
code point of the zero is all that has to be known.
-/

namespace Custody.Text

/-- The code points of the digit zero, script by script. -/
def digitZeros : List Nat := [
  48, 1632, 1776, 1984, 2406, 2534, 2662, 2790, 2918, 3046, 3174, 3302, 3430, 3558, 3664, 3792,
  3872, 4160, 4240, 6112, 6160, 6470, 6608, 6784, 6800, 6992, 7088, 7232, 7248, 42528, 43216,
  43264, 43472, 43504, 43600, 44016, 65296, 66720, 68912, 69734, 69872, 69942, 70096, 70384,
  70736, 70864, 71248, 71360, 71472, 71904, 72016, 72784, 73040, 73120, 92768, 92864, 93008,
  120782, 120792, 120802, 120812, 120822, 123200, 123632, 125264, 130032]

/-- The value of a decimal digit of any script. -/
def digitValue? (c : Char) : Option Nat :=
  (digitZeros.find? fun z => z ≤ c.toNat && c.toNat < z + 10).map fun z => c.toNat - z

/-- The value of a digit from `0` to `9`. -/
def asciiDigit? (c : Char) : Option Nat :=
  if '0' ≤ c ∧ c ≤ '9' then some (c.toNat - '0'.toNat) else none

/-- A digit from `0` to `9`. -/
def isAsciiDigit (c : Char) : Bool := (asciiDigit? c).isSome

/-- The value of a hexadecimal digit of either case. -/
def hexDigit? (c : Char) : Option Nat :=
  if '0' ≤ c ∧ c ≤ '9' then some (c.toNat - '0'.toNat)
  else if 'a' ≤ c ∧ c ≤ 'f' then some (c.toNat - 'a'.toNat + 10)
  else if 'A' ≤ c ∧ c ≤ 'F' then some (c.toNat - 'A'.toNat + 10)
  else none

/-- The number that a list of digit values stands for, most significant first. -/
def ofDigits (base : Nat) (ds : List Nat) : Nat :=
  ds.foldl (fun n d => n * base + d) 0

/-- The lower-case hexadecimal digit of a value below sixteen. -/
def hexChar (n : Nat) : Char :=
  if n < 10 then Char.ofNat ('0'.toNat + n) else Char.ofNat ('a'.toNat + (n - 10))

/-- A decimal digit of any script as an ASCII digit; every other character stays. -/
def plainDigit (c : Char) : Char :=
  match digitValue? c with
  | some d => hexChar d
  | none => c

/-- The last `width` digits of a number in a base up to sixteen, most significant first. -/
def digitsOfWidth (base : Nat) : Nat → Nat → List Char
  | 0, _ => []
  | width + 1, n => digitsOfWidth base width (n / base) ++ [hexChar (n % base)]

/-- A number has as many digits as its width says. -/
theorem length_digitsOfWidth (base width n : Nat) :
    (digitsOfWidth base width n).length = width := by
  induction width generalizing n with
  | zero => rfl
  | succ w ih => simp [digitsOfWidth, ih]

/-- A number with leading zeros up to the width; a longer number is not cut. -/
def padded (width n : Nat) : String :=
  let s := toString n
  String.ofList (List.replicate (width - s.length) '0') ++ s

end Custody.Text
