import Custody.Number.Binary64

/-!
# Shortest decimal text of a binary value

Among the decimal numbers that round to a given binary value, the one with the fewest digits is
written, and of those the nearest. The search runs over grids `10^g` from coarse to fine: on each
the two neighbours of the value are tried, and the first grid with a hit wins.
-/

namespace Custody

namespace Binary64

/-- Whether `10^p ≤ num / den`. -/
def powerAtMost (p : Int) (num den : Nat) : Bool :=
  if 0 ≤ p then tenTo p.toNat * den ≤ num else den ≤ num * tenTo (-p).toNat

/-- The exponent of the leading decimal digit of `num / den`. -/
def leadingExponent (num den : Nat) : Int :=
  let guess := ((Nat.log2 num : Int) - Nat.log2 den) * 30103 / 100000
  if powerAtMost (guess + 1) num den then guess + 1
  else if powerAtMost guess num den then guess
  else guess - 1

/-- The reals that round to `m·2^e`, as multiples of `2^(e-2)`, and whether the ends belong. -/
structure RoundingInterval where
  low : Nat
  high : Nat
  closed : Bool
deriving Repr

/-- The interval reaches half way to both neighbours; below a power of two the lower neighbour is
nearer. -/
def roundingInterval (m : Nat) (e : Int) : RoundingInterval :=
  { low := if m = twoTo 52 ∧ -1074 < e then 4 * m - 1 else 4 * m - 2
    high := 4 * m + 2
    closed := m % 2 = 0 }

/-- Whether `c·10^g` lies in the interval, whose unit is `2^(e-2)`. -/
def RoundingInterval.holds (i : RoundingInterval) (e : Int) (c : Nat) (g : Int) : Bool :=
  let u := e - 2
  let x := c * (if 0 ≤ g then tenTo g.toNat else 1) * (if 0 ≤ u then 1 else twoTo (-u).toNat)
  let s := (if 0 ≤ g then 1 else tenTo (-g).toNat) * (if 0 ≤ u then twoTo u.toNat else 1)
  if i.closed then i.low * s ≤ x && x ≤ i.high * s else i.low * s < x && x < i.high * s

/-- Which of two equally near decimals is written: the one with the even last digit, or the one
further from zero. -/
inductive Tie where
  | even | away
deriving DecidableEq, Repr

/-- Whether a tie goes to `c` and not to `c + 1`. -/
def Tie.keeps (t : Tie) (c : Nat) : Bool := t = .even && c % 2 = 0

/-- The decimal on the grid `10^g` that reads back as `m·2^e`: of the two neighbours the
nearer. -/
def onGrid (tie : Tie) (m : Nat) (e : Int) (g : Int) : Option Nat :=
  let num := m * (if 0 ≤ e then twoTo e.toNat else 1) * (if 0 ≤ g then 1 else tenTo (-g).toNat)
  let den := (if 0 ≤ e then 1 else twoTo (-e).toNat) * (if 0 ≤ g then tenTo g.toNat else 1)
  let c := num / den
  let i := roundingInterval m e
  let near := if 2 * (num % den) < den ∨ (2 * (num % den) = den ∧ tie.keeps c) then c else c + 1
  let far := if near = c then c + 1 else c
  if i.holds e near g then some near else if i.holds e far g then some far else none

/-- The search over grids, from one digit up to as many as the fuel allows. -/
def searchGrid (tie : Tie) (m : Nat) (e : Int) (lead : Int) : Nat → Nat → Nat × Int
  | 0, _ => (m, 0)
  | fuel + 1, k =>
    let g := lead - k
    match onGrid tie m e g with
    | some c => (c, g)
    | none => searchGrid tie m e lead fuel (k + 1)

/-- A coefficient without zeros at its end. -/
def dropZeros : Nat → Nat × Int → Nat × Int
  | 0, r => r
  | fuel + 1, (c, g) => if c ≠ 0 ∧ c % 10 = 0 then dropZeros fuel (c / 10, g + 1) else (c, g)

/-- The shortest decimal `c·10^g` that reads back as `m·2^e`; seventeen digits always do. -/
def shortest (tie : Tie) (m : Nat) (e : Int) : Nat × Int :=
  if m = 0 then (0, 0)
  else
    let num := m * (if 0 ≤ e then twoTo e.toNat else 1)
    let den := if 0 ≤ e then 1 else twoTo (-e).toNat
    dropZeros 20 (searchGrid tie m e (leadingExponent num den) 20 0)

/-- Digits with a point after the first `place` of them, filled up with zeros on either side. -/
def pointed (digits : List Char) (place : Int) : String :=
  let n : Int := digits.length
  if place ≤ 0 then "0." ++ String.ofList (List.replicate (-place).toNat '0' ++ digits)
  else if n ≤ place then String.ofList (digits ++ List.replicate (place - n).toNat '0')
  else String.ofList (digits.take place.toNat ++ '.' :: digits.drop place.toNat)

/-- Texts of the values that are not finite. -/
def specialText : Binary64 → String
  | .infinite true => "-inf"
  | .infinite false => "inf"
  | _ => "nan"

/-- The usual text: positional while the point stands between four places before the first digit
and sixteen after it, else with an exponent of at least two digits; a whole number ends in
`.0`. A tie goes to the even digit. -/
def text : Binary64 → String
  | .finite s m e =>
    let (c, g) := shortest .even m e
    let ds := (toString c).toList
    let place := (ds.length : Int) + g
    let body :=
      if m = 0 then "0.0"
      else if -4 < place ∧ place ≤ 16 then
        let t := pointed ds place
        if (ds.length : Int) ≤ place then t ++ ".0" else t
      else
        let x := place - 1
        let mantissa := if ds.length = 1 then String.ofList ds else pointed ds 1
        let sign := if x < 0 then "-" else "+"
        let digits := toString x.natAbs
        mantissa ++ "e" ++ sign ++ (if digits.length < 2 then "0" ++ digits else digits)
    if s then "-" ++ body else body
  | x => specialText x

/-- The text without an exponent, and without a fraction for a whole number. A tie goes away from
zero. -/
def positionalText : Binary64 → String
  | .finite s m e =>
    let (c, g) := shortest .away m e
    let ds := (toString c).toList
    let body := if m = 0 then "0" else pointed ds ((ds.length : Int) + g)
    if s then "-" ++ body else body
  | x => specialText x

example : shortest .even 0x1999999999999a (-56) = (1, -1) := by decide +kernel

example : shortest .even 1 (-1074) = (5, -324) := by decide +kernel

example : shortest .even 0x11c29182a45874 (-5) ≠ shortest .away 0x11c29182a45874 (-5) := by
  decide +kernel

end Binary64

end Custody
