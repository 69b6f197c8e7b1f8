import Custody.Schema.Numeral
import Custody.Number.Shortest
import Custody.Time.RequestReader

/-!
# Single values of requests

Texts, words, numbers, truth values, moments and identifiers, with the bounds a field may set.
Numbers are also taken from texts that spell them. A broken text is told as what it is, and taken only
where nothing is asked of a text.
-/

namespace Custody

/-- What is found in the place of a value of some kind that is no such value. -/
def misfit {α : Type} (v : Violation) : Json → Reading α
  | .broken _ => Reading.fault .textBroken
  | _ => Reading.fault v

/-- A text whose number of characters lies within bounds. -/
def textIn (least : Nat) (most : Option Nat) : Reader String
  | .text s =>
    if most.any fun m => m < s.length then Reading.fault .textTooLong
    else if s.length < least then Reading.fault .textTooShort
    else .ok s
  | v => misfit .textType v

/-- Any text of characters. -/
def anyText : Reader String := textIn 0 none

/-- Any text, also a broken one. -/
def looseText : Reader LooseText
  | .text s => .ok (.sound s)
  | .broken t => .ok (.broken t)
  | _ => Reading.fault .textType

/-- Any value. -/
def anyValue : Reader Json := .ok

/-- Any object. -/
def anyObject : Reader Members
  | .object ms => .ok ms
  | _ => Reading.fault .objectType

/-- A member of a vocabulary. -/
def wordOf (α : Type) [Worded α] : Reader α
  | .text w =>
    match ofWord? w with
    | some a => .ok a
    | none => Reading.fault .unknownWord
  | v => misfit .unknownWord v

/-- One of a few texts. -/
def literalOf (words : List String) : Reader String
  | .text w => if w ∈ words then .ok w else Reading.fault .literal
  | _ => Reading.fault .literal

/-! ## Whole numbers -/

/-- The whole number that a binary number is, if its size has less than 64 bits. -/
def wholeOfReal? (x : Binary64) : Option Int :=
  x.toInt?.bind fun n => if n.natAbs < twoTo 63 then some n else none

/-- A whole number. A binary number is taken when it is whole and not too large. -/
def whole : Reader Int
  | .int n => .ok n
  | .bool b => .ok (if b then 1 else 0)
  | .real x =>
    if !x.isFinite then Reading.fault .finiteNumber
    else if x.toInt?.isNone then Reading.fault .intFromReal
    else match wholeOfReal? x with
      | some n => .ok n
      | none => Reading.fault .intSize
  | .text s => Numeral.whole s
  | v => misfit .intType v

/-- A whole number within bounds; the upper bound is judged first. -/
def wholeIn (least : Int) (most : Option Int) : Reader Int := fun v =>
  match whole v with
  | .ok n =>
    if most.any fun m => m < n then Reading.fault .atMost
    else if n < least then Reading.fault .atLeast
    else .ok n
  | .error fs => .error fs

/-! ## Truth values -/

/-- The truth value that a number of 64 bits stands for. -/
def truthOfWhole (n : Int) : Reading Bool :=
  if !fitsWord n then Reading.fault .boolType
  else if n = 0 then .ok false
  else if n = 1 then .ok true
  else Reading.fault .boolParsing

/-- A truth value, also by one of the usual words or by zero and one. -/
def truth : Reader Bool
  | .bool b => .ok b
  | .int n => truthOfWhole n
  | .real x =>
    match wholeOfReal? x with
    | some n => truthOfWhole n
    | none => Reading.fault .boolType
  | .text s =>
    let w := s.map Text.foldAscii
    if w ∈ ["0", "off", "f", "false", "n", "no"] then .ok false
    else if w ∈ ["1", "on", "t", "true", "y", "yes"] then .ok true
    else Reading.fault .boolParsing
  | v => misfit .boolType v

/-! ## Binary numbers -/

/-- A binary number; a truth value counts as one or zero. A whole number has to lie within the
format. -/
def real : Reader Binary64
  | .real x => .ok x
  | .int n =>
    let x := Binary64.ofInt n
    if x.isFinite then .ok x else Reading.fault .realType
  | .bool b => .ok (Binary64.ofInt (if b then 1 else 0))
  | .text s => Numeral.real s
  | v => misfit .realType v

/-! ## Decimals -/

/-- A whole number among the parts of a decimal; a truth value counts as one or zero. -/
def wholePart : Json → Reading Int
  | .int n => if fitsWord n then .ok n else Reading.fault .partSize
  | .bool b => .ok (if b then 1 else 0)
  | _ => Reading.fault .decimalType

/-- A single digit. -/
def singleDigit (v : Json) : Reading Nat := do
  let n ← wholePart v
  if 0 ≤ n ∧ n ≤ 9 then .ok n.toNat else Reading.fault .decimalType

/-- How the decimal with a sign and an exponent follows from the number that its digits spell. A
letter for a special value can stand in the place of the exponent. -/
def decimalScaled (negative : Bool) : Json → Reading (Nat → Reading Decimal)
  | .text "F" => .ok fun _ => .ok (.infinite negative)
  | .text "n" => .ok fun c => .ok (.undefined negative false c)
  | .text "N" => .ok fun c => .ok (.undefined negative true c)
  | v => do
    let e ← wholePart v
    .ok fun c => (Decimal.checked negative c e).mapError fun _ => [⟨.decimalParsing, []⟩]

/-- The decimal with a sign, digits and an exponent, which are judged in the order of sign, exponent
and digits. -/
def decimalOfParts (sign digits exponent : Json) : Reading Decimal := do
  let s ← wholePart sign
  if s ≠ 0 ∧ s ≠ 1 then Reading.fault .decimalType
  else
    let scaled ← decimalScaled (s = 1) exponent
    match digits with
    | .list ds => do
      let ds ← ds.mapM singleDigit
      scaled (Text.ofDigits 10 ds)
    | _ => Reading.fault .decimalType

/-- Any finite decimal. A JSON text may also give one by its three parts. -/
def decimal (src : Source) (v : Json) : Reading Decimal :=
  let finite (d : Decimal) : Reading Decimal :=
    if d.isFinite then .ok d else Reading.fault .finiteNumber
  let spelled (t : String) : Reading Decimal :=
    match Decimal.ofText t with
    | .ok d => finite d
    | .error _ => Reading.fault .decimalParsing
  match v with
  | .text s => spelled s
  | .int n => .ok (Decimal.ofInt n)
  | .real x => spelled (if src = .text then x.positionalText else x.text)
  | .list [s, ds, e] =>
    if src = .text then (decimalOfParts s ds e).bind finite else Reading.fault .decimalType
  | .broken _ => Reading.fault .decimalParsing
  | _ => Reading.fault .decimalType

/-- How many digits a number has, and how many of them are decimal places. -/
def digitsAndPlaces (c : Nat) (e : Int) : Nat × Nat :=
  let n := Decimal.digitCount c
  if 0 ≤ e then (n + e.toNat, 0) else (max n e.natAbs, e.natAbs)

/-- The digits that an amount may have. -/
def amountDigits : Nat := 20

/-- The decimal places that an amount may have. -/
def amountPlaces : Nat := 7

/-- What is wrong with the digits of an amount. A bound is broken only when both the number as
written and its shortest form break it; where arithmetic makes none, the number as written stands for
both. -/
def amountFault? (ctx : Decimal.Context) (c : Nat) (e : Int) : Option Violation :=
  let (digits, places) := digitsAndPlaces c e
  let (digits', places') := match Decimal.normalized? ctx c e with
    | some (c', e') => digitsAndPlaces c' e'
    | none => (digits, places)
  let wholeMost := amountDigits - amountPlaces
  if amountDigits < digits ∧ amountDigits < digits' then some .maxDigits
  else if amountPlaces < places ∧ amountPlaces < places' then some .maxPlaces
  else if wholeMost < digits - places ∧ wholeMost < digits' - places' then some .wholeDigits
  else none

/-- An amount of an asset: a positive decimal with few enough digits. -/
def amount (ctx : Decimal.Context) (src : Source) (v : Json) : Reading Decimal :=
  match decimal src v with
  | .ok d =>
    match d with
    | .finite s c e =>
      match amountFault? ctx c e with
      | some f => Reading.fault f
      | none => if s ∨ c = 0 then Reading.fault .above else .ok d
    | _ => Reading.fault .finiteNumber
  | .error fs => .error fs

/-! ## Moments and identifiers -/

/-- A moment that a clock can show. -/
def shownMoment : Option Moment → Violation → Reading Moment
  | some m, _ => if Moment.wallInRange m.wall then .ok m else Reading.fault .momentParsing
  | none, v => Reading.fault v

/-- A moment. In a JSON text a whole number has to fit into 64 bits to be one; elsewhere a larger one
counts as a binary number, within the format. -/
def moment (src : Source) : Reader Moment
  | .text s => shownMoment (Moment.ofRequestText? s) .momentFromDate
  | .int n =>
    if fitsWord n then shownMoment (Moment.ofWhole? n) .momentParsing
    else if src = .text ∨ !(Binary64.ofInt n).isFinite then Reading.fault .momentType
    else shownMoment (Moment.ofReal? (Binary64.ofInt n)) .momentParsing
  | .real x => shownMoment (Moment.ofReal? x) .momentParsing
  | v => misfit .momentType v

/-- An identifier. -/
def identifier : Reader Identifier
  | .text s =>
    match Identifier.ofRequestText? s with
    | some i => .ok i
    | none => Reading.fault .identifierParsing
  | v => misfit .identifierType v

end Custody
