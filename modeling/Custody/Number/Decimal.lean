import Custody.Number.Binary64

/-!
# Decimal numbers

Amounts are decimals that keep the exponent they were written with: `100`, `100.0` and `1E+2` are
equal in value and differ in text. Besides the finite ones there are infinities and undefined
values, quiet or signaling.

> `equals?_refl`: every number that is not undefined equals itself.
-/

namespace Custody

/-- A decimal number. `finite s c e` stands for `±c·10^e`; the payload of an undefined value is
the number written after it, zero for none. -/
inductive Decimal where
  | finite (negative : Bool) (coefficient : Nat) (exponent : Int)
  | infinite (negative : Bool)
  | undefined (negative signaling : Bool) (payload : Nat)
deriving DecidableEq, Repr, Inhabited

namespace Decimal

/-- The number zero. -/
def zero : Decimal := .finite false 0 0

/-- A whole number. -/
def ofInt (n : Int) : Decimal := .finite (n < 0) n.natAbs 0

/-- How many digits a coefficient is written with. -/
def digitCount (n : Nat) : Nat := (Nat.toDigits 10 n).length

/-- Whether the number is finite. -/
def isFinite : Decimal → Bool
  | .finite .. => true
  | _ => false

/-! ## Text -/

/-- The sign in front of a text. -/
def signText (negative : Bool) : String := if negative then "-" else ""

/-- An exponent with its sign. -/
def exponentText (e : Int) : String :=
  "E" ++ (if e < 0 then "-" else "+") ++ toString e.natAbs

/-- A finite number: positional unless the exponent is positive or the number lies below
`10^-6`. -/
def finiteText (c : Nat) (e : Int) : String :=
  let ds := Nat.toDigits 10 c
  let n : Int := ds.length
  let place := n + e
  if e ≤ 0 ∧ -6 < place then
    if place ≤ 0 then "0." ++ String.ofList (List.replicate (-place).toNat '0' ++ ds)
    else if e = 0 then String.ofList ds
    else String.ofList (ds.take place.toNat ++ '.' :: ds.drop place.toNat)
  else
    let mantissa := match ds with
      | [d] => String.ofList [d]
      | d :: rest => String.ofList (d :: '.' :: rest)
      | [] => ""
    if place = 1 then mantissa else mantissa ++ exponentText (place - 1)

/-- The text of a number. -/
def text : Decimal → String
  | .finite s c e => signText s ++ finiteText c e
  | .infinite s => signText s ++ "Infinity"
  | .undefined s sig p =>
    signText s ++ (if sig then "sNaN" else "NaN") ++ (if p = 0 then "" else toString p)

example : (finite false 1000000000 (-7)).text = "100.0000000" := by cbv

example : (finite false 1 2).text = "1E+2" := by cbv

example : (finite true 0 (-7)).text = "-0E-7" := by cbv

/-! ## Comparison -/

/-- Whether two finite magnitudes are ordered `<`, `=` or `>`. Magnitudes whose leading digits stand
at different places are not brought to one exponent. -/
def compareMagnitude (c : Nat) (e : Int) (d : Nat) (f : Int) : Ordering :=
  if c = 0 ∧ d = 0 then .eq
  else if c = 0 then .lt
  else if d = 0 then .gt
  else
    let p := (digitCount c : Int) + e
    let q := (digitCount d : Int) + f
    if p < q then .lt
    else if q < p then .gt
    else if e ≤ f then compare c (d * tenTo (f - e).toNat)
    else compare (c * tenTo (e - f).toNat) d

/-- The order of two finite numbers or infinities; none when one is undefined. -/
def compare? : Decimal → Decimal → Option Ordering
  | .undefined .., _ => none
  | _, .undefined .. => none
  | .infinite s, .infinite t => some (if s = t then .eq else if s then .lt else .gt)
  | .infinite s, .finite .. => some (if s then .lt else .gt)
  | .finite .., .infinite t => some (if t then .gt else .lt)
  | .finite s c e, .finite t d f =>
    if c = 0 ∧ d = 0 then some .eq
    else if c = 0 then some (if t then .gt else .lt)
    else if d = 0 then some (if s then .lt else .gt)
    else match s, t with
      | false, false => some (compareMagnitude c e d f)
      | true, true => some (compareMagnitude d f c e)
      | true, false => some .lt
      | false, true => some .gt

/-- Whether a number is a signaling undefined value. -/
def isSignaling : Decimal → Bool
  | .undefined _ sig _ => sig
  | _ => false

/-- Equality of value; none when a signaling value takes part, which no comparison accepts. A quiet
undefined value equals nothing. -/
def equals? (a b : Decimal) : Option Bool :=
  if a.isSignaling || b.isSignaling then none else some (compare? a b == some .eq)

theorem compareMagnitude_refl (c : Nat) (e : Int) : compareMagnitude c e c e = .eq := by
  unfold compareMagnitude
  by_cases h : c = 0 <;> simp [h]

theorem equals?_refl (a : Decimal) (h : ∀ s g p, a ≠ .undefined s g p) :
    equals? a a = some true := by
  cases a with
  | finite s c e =>
    by_cases hc : c = 0
    · simp [equals?, isSignaling, compare?, hc]
    · cases s <;> simp [equals?, isSignaling, compare?, hc, compareMagnitude_refl]
  | infinite s => simp [equals?, isSignaling, compare?]
  | undefined s g p => exact absurd rfl (h s g p)

/-! ## Rounding to a precision -/

/-- How arithmetic rounds: the significant digits that it keeps, the exponents that a leading digit may
have, and whether a result that is not exact is refused. -/
structure Context where
  precision : Nat
  leastExponent : Int
  mostExponent : Int
  refusesInexact : Bool
  precision_pos : 0 < precision
  leastExponent_nonpos : leastExponent ≤ 0
  mostExponent_nonneg : 0 ≤ mostExponent
deriving DecidableEq

namespace Context

/-- The least place that arithmetic keeps. -/
def leastPlace (ctx : Context) : Int := ctx.leastExponent - ctx.precision + 1

/-- Where nothing else is said: 28 digits, and what is lost is lost silently. -/
def usual : Context := ⟨28, -999999, 999999, false, by decide, by decide, by decide⟩

/-- The context with the widest bounds, in which every number that can be read is exact. -/
def widest : Context :=
  ⟨999999999999999999, -999999999999999999, 999999999999999999, false, by decide, by decide, by decide⟩

end Context

/-- `c / 10^k`, a half going to the even neighbour. Where there are more places to go than digits,
nothing is left. -/
def roundHalfEven (c k : Nat) : Nat :=
  if digitCount c < k then 0
  else
    let d := tenTo k
    let q := c / d
    let r := c % d
    if 2 * r < d then q else if d < 2 * r then q + 1 else if q % 2 = 0 then q else q + 1

section Rounding

variable (ctx : Context)

/-- How many digits at the end of a number are not kept. -/
def excess (c : Nat) (e : Int) : Nat :=
  max (digitCount c - ctx.precision) (ctx.leastPlace - e).toNat

/-- A coefficient with no more digits than are kept, none of them below the least place. -/
def rounded (c : Nat) (e : Int) : Nat × Int :=
  let extra := excess ctx c e
  if extra = 0 then (c, e)
  else
    let r := roundHalfEven c extra
    if digitCount r ≤ ctx.precision then (r, e + extra) else (r / 10, e + extra + 1)

/-- Whether the digits that are not kept are zeros. -/
def isExact (c : Nat) (e : Int) : Bool :=
  let extra := excess ctx c e
  if digitCount c < extra then c = 0 else c % tenTo extra = 0

end Rounding

example : rounded .usual 15 (Context.usual.leastPlace - 1) = (2, Context.usual.leastPlace) := by
  decide +kernel

/-- The difference of two numbers, rounded as usual; none where it is undefined. -/
def sub? : Decimal → Decimal → Option Decimal
  | .undefined .., _ => none
  | _, .undefined .. => none
  | .infinite s, .infinite t => if s = t then none else some (.infinite s)
  | .infinite s, .finite .. => some (.infinite s)
  | .finite .., .infinite t => some (.infinite (!t))
  | .finite s c e, .finite t d f =>
    let g := min e f
    let x : Int := c * tenTo (e - g).toNat
    let y : Int := d * tenTo (f - g).toNat
    let z := (if s then -x else x) - (if t then -y else y)
    let (r, h) := rounded .usual z.natAbs g
    some (.finite (z < 0) r h)

/-- A coefficient without zeros at its end; zero has the exponent zero. -/
def dropZeros : Nat → Nat → Int → Nat × Int
  | 0, c, e => (c, e)
  | fuel + 1, c, e => if c % 10 = 0 then dropZeros fuel (c / 10) (e + 1) else (c, e)

/-- The shortest coefficient and its exponent after rounding; none where rounding is refused, or where
the exponent leaves the range of arithmetic. -/
def normalized? (ctx : Context) (c : Nat) (e : Int) : Option (Nat × Int) :=
  if ctx.refusesInexact && !isExact ctx c e then none
  else
    let (r, f) := rounded ctx c e
    if r = 0 then some (0, 0)
    else if ctx.mostExponent < (digitCount r : Int) + f - 1 then none
    else some (dropZeros (digitCount r) r f)

/-! ## Binary values -/

/-- The binary value nearest to a number. -/
def toBinary64 : Decimal → Binary64
  | .finite s c e => Binary64.ofScientific s c e
  | .infinite s => .infinite s
  | .undefined .. => .nan

/-- A binary value with seven decimal places, the way a stored amount is read back. -/
def ofBinary64 (x : Binary64) : Decimal :=
  match x with
  | .finite s m e =>
    let n := m * tenTo 7
    if 0 ≤ e then .finite s (n * twoTo e.toNat) (-7)
    else
      let d := twoTo (-e).toNat
      let q := n / d
      let r := n % d
      .finite s (if 2 * r < d then q else if d < 2 * r then q + 1 else if q % 2 = 0 then q else q + 1) (-7)
  | .infinite s => .infinite s
  | .nan => .undefined false false 0

example : ofBinary64 (Binary64.ofInt 100) = .finite false (tenTo 9) (-7) := by decide +kernel

end Decimal

end Custody
