import Custody.Number.Power

/-!
# Binary floating-point values

A number of the 64-bit binary format, held exactly: a finite one is a whole mantissa times a
power of two. Rounding to the nearest such number is done in whole-number arithmetic.

> `nearest`: the mantissa stays below `2^53` and the exponent does not fall below `-1074`, unless
> the value is too large for the format and becomes infinite.
-/

namespace Custody

/-- A value of the 64-bit binary format; `finite s m e` stands for `±m·2^e`, negative when `s`. -/
inductive Binary64 where
  | finite (negative : Bool) (mantissa : Nat) (exponent : Int)
  | infinite (negative : Bool)
  | nan
deriving DecidableEq, Repr, Inhabited

namespace Binary64

/-- The value zero. -/
def zero : Binary64 := .finite false 0 (-1074)

/-- The value of `num / den` on the grid of multiples of `2^e`, rounded down. -/
def scaledFloor (num den : Nat) (e : Int) : Nat :=
  if 0 ≤ e then num / (den * twoTo e.toNat) else num * twoTo (-e).toNat / den

/-- The value of `num / den` on the grid of multiples of `2^e`, rounded to the nearest, a half to
the even neighbour. -/
def scaledRound (num den : Nat) (e : Int) : Nat :=
  let n := if 0 ≤ e then num else num * twoTo (-e).toNat
  let d := if 0 ≤ e then den * twoTo e.toNat else den
  let q := n / d
  let r := n % d
  if 2 * r < d then q else if d < 2 * r then q + 1 else if q % 2 = 0 then q else q + 1

/-- The exponent whose grid gives `num / den` a mantissa of 53 bits, or the least exponent of the
format where that is larger. -/
def gridExponent (num den : Nat) : Int :=
  let e := (Nat.log2 num : Int) - Nat.log2 den - 52
  let e := if scaledFloor num den e < twoTo 52 then e - 1 else e
  max e (-1074)

/-- The value of the format nearest to `±num / den`; `den` is positive. -/
def nearest (negative : Bool) (num den : Nat) : Binary64 :=
  if num = 0 then .finite negative 0 (-1074)
  else
    let e := gridExponent num den
    let m := scaledRound num den e
    let (m, e) := if m = twoTo 53 then (twoTo 52, e + 1) else (m, e)
    if 971 < e then .infinite negative else .finite negative m e

/-- The value nearest to `±coefficient·10^exponent`. Exponents far outside the format are settled
by the number of digits alone, counted low for what is too large and high for what is too small. -/
def ofScientific (negative : Bool) (coefficient : Nat) (exponent : Int) : Binary64 :=
  let bits : Int := Nat.log2 coefficient
  if coefficient = 0 then .finite negative 0 (-1074)
  else if 310 < bits * 30102 / 100000 + exponent then .infinite negative
  else if bits * 30103 / 100000 + exponent < -345 then .finite negative 0 (-1074)
  else if 0 ≤ exponent then nearest negative (coefficient * tenTo exponent.toNat) 1
  else nearest negative coefficient (tenTo (-exponent).toNat)

/-- The value nearest to a whole number. -/
def ofInt (n : Int) : Binary64 := nearest (n < 0) n.natAbs 1

/-- The value as a fraction, for a finite one. -/
def toRatio? : Binary64 → Option (Int × Nat)
  | .finite s m e =>
    let n : Int := if 0 ≤ e then (m * twoTo e.toNat : Nat) else m
    some (if s then -n else n, if 0 ≤ e then 1 else twoTo (-e).toNat)
  | _ => none

/-- The whole number that the value is, if it is one. -/
def toInt? (x : Binary64) : Option Int :=
  match x.toRatio? with
  | some (n, d) => if n % d = 0 then some (n / d) else none
  | none => none

/-- Whether the value is neither infinite nor undefined. -/
def isFinite : Binary64 → Bool
  | .finite .. => true
  | _ => false

/-- The sign of the order between two values: none when one is undefined. -/
def compare? : Binary64 → Binary64 → Option Ordering
  | .nan, _ => none
  | _, .nan => none
  | .infinite s, .infinite t =>
    some (if s = t then .eq else if s then .lt else .gt)
  | .infinite s, .finite .. => some (if s then .lt else .gt)
  | .finite .., .infinite t => some (if t then .gt else .lt)
  | x@(.finite ..), y@(.finite ..) =>
    match x.toRatio?, y.toRatio? with
    | some (a, b), some (c, d) => some (compare (a * d) (c * b))
    | _, _ => none

/-- The value in units of the finest grid, 2 to the -1074. Infinite values lie beyond all others;
an undefined one has no place and is put at zero. -/
def rank : Binary64 → Int
  | .finite s m e => (if s then -1 else 1) * (m * twoTo (e + 1074).toNat : Nat)
  | .infinite s => (if s then -1 else 1) * (twoTo 2200 : Nat)
  | .nan => 0

/-- Whether the value lies above zero. -/
def isPositive (x : Binary64) : Bool := compare? x zero = some .gt

/-- Whether the value equals zero, of either sign. -/
def isZero (x : Binary64) : Bool := compare? x zero = some .eq

example : ofScientific false 1 (-1) = .finite false 0x1999999999999a (-56) := by decide +kernel

example : ofInt (twoTo 53 + 1) = .finite false (twoTo 52) 1 := by decide +kernel

example : ofScientific false 5 (-324) = .finite false 1 (-1074) := by decide +kernel

end Binary64

end Custody
