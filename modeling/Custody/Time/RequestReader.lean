import Custody.Time.Moment
import Custody.Number.DecimalReader

/-!
# Reading date-times of requests

A request names a moment by a date with hyphens and a time with colons, or by a date alone, which
is its midnight, or by the seconds since 1970. Numbers beyond `2·10^10` are milliseconds. Whether a
clock can show the moment is judged by whoever takes it.
-/

namespace Custody

namespace Moment

/-- A number of exactly two digits below a bound, and the rest. -/
def twoDigits (bound : Nat) : List Char → Option (Nat × List Char)
  | a :: b :: rest => do
    let x ← Text.asciiDigit? a
    let y ← Text.asciiDigit? b
    if x * 10 + y < bound then some (x * 10 + y, rest) else none
  | _ => none

/-- The number of a day; the year 0 is a leap year in front of the year 1. -/
def requestDay (d : CivilDate) : Int := if d.year = 0 then (d.dayNumber : Int) - 366 else d.dayNumber

/-- The number of the day of a date with hyphens, and the rest. -/
def requestDate (cs : List Char) : Option (Int × List Char) := do
  let (c, rest) ← twoDigits 100 cs
  let (y, rest) ← twoDigits 100 rest
  match rest with
  | '-' :: rest =>
    let (m, rest) ← twoDigits 13 rest
    match rest with
    | '-' :: rest =>
      let (d, rest) ← twoDigits 32 rest
      let date : CivilDate := ⟨c * 100 + y, m, d⟩
      if date.isValid then some (requestDay date, rest) else none
    | _ => none
  | _ => none

/-- A fraction of a second in microseconds, and the rest; it has at least one digit, and those
beyond the sixth do not count. -/
def requestFraction (cs : List Char) : Option (Nat × List Char) :=
  match cs with
  | c :: rest =>
    if c = '.' ∨ c = ',' then
      let ds := (rest.takeWhile Text.isAsciiDigit).filterMap Text.asciiDigit?
      if ds.isEmpty then none
      else
        let kept := ds.take 6
        some (Text.ofDigits 10 kept * tenTo (6 - kept.length), rest.dropWhile Text.isAsciiDigit)
    else some (0, cs)
  | [] => some (0, [])

/-- A time of day in microseconds, and the rest. -/
def requestClock (cs : List Char) : Option (Int × List Char) := do
  let (h, rest) ← twoDigits 24 cs
  match rest with
  | ':' :: rest =>
    let (m, rest) ← twoDigits 60 rest
    match rest with
    | ':' :: rest =>
      let (s, rest) ← twoDigits 60 rest
      let (u, rest) ← requestFraction rest
      some ((((h * 60 + m) * 60 + s) * 1000000 + u : Nat), rest)
    | rest => some (((h * 60 + m) * 60 * 1000000 : Nat), rest)
  | _ => none

/-- The distance from UTC that ends a text. -/
def requestOffset : List Char → Option (Option Int)
  | [] => some none
  | ['Z'] => some (some 0)
  | ['z'] => some (some 0)
  | c :: rest =>
    if c = '+' ∨ c = '-' ∨ c = '−' then do
      let (h, rest) ← twoDigits 24 rest
      let rest := match rest with
        | ':' :: r => r
        | r => r
      let (m, rest) ← twoDigits 60 rest
      let total : Int := ((h * 60 + m) * 60 * 1000000 : Nat)
      if rest.isEmpty then some (some (if c = '+' then total else -total)) else none
    else none

/-- The moment of a date with a time. -/
def requestDateTime (cs : List Char) : Option Moment := do
  let (d, rest) ← requestDate cs
  match rest with
  | c :: rest =>
    if c = 'T' ∨ c = 't' ∨ c = ' ' ∨ c = '_' then
      let (t, rest) ← requestClock rest
      let o ← requestOffset rest
      some ⟨d * Moment.day + t, o⟩
    else none
  | [] => none

/-- The wall clock of 1 January 1970. -/
def epoch : Int := 719162 * Moment.day

/-- The largest size of a number that counts seconds. -/
def secondsMost : Nat := 20000000000

/-- The moment some microseconds after 1970. None outside the years 0 to 9999. -/
def sinceEpoch? (micro : Int) : Option Moment :=
  let s := micro / 1000000
  if s < -62167219200 ∨ 253402300799 < s then none else some (utc (epoch + micro))

/-- The moment a number of seconds after 1970, or of milliseconds where that is too large for
seconds. -/
def ofWhole? (n : Int) : Option Moment :=
  sinceEpoch? (n * if secondsMost < n.natAbs then 1000 else 1000000)

/-- The nearest whole number; a half goes up. -/
def roundHalfUp (x : Binary64) : Nat :=
  match x.toRatio? with
  | some (n, d) => (2 * n.natAbs + d) / (2 * d)
  | none => 0

/-- The moment a fractional number of seconds or milliseconds after 1970. The microseconds above
the lower whole number are a binary number before they are rounded. -/
def ofReal? (x : Binary64) : Option Moment :=
  match x.toRatio? with
  | none => none
  | some (n, d) =>
    let unit : Nat := if secondsMost * d < n.natAbs then 1000 else 1000000
    let above := Binary64.nearest false ((n % d).toNat * unit) d
    sinceEpoch? (n / d * unit + roundHalfUp above)

/-- The moment that a text stands for as a number: digits with a sign, or a fractional number that
has a point behind its first digits. -/
def ofNumberText? (cs : List Char) : Option Moment :=
  let (negative, body) := Decimal.spanSign cs
  let (whole, rest) := Decimal.spanDigits body
  match rest with
  | [] =>
    let n : Int := Text.ofDigits 10 whole
    if whole.isEmpty then none else ofWhole? (if negative then -n else n)
  | '.' :: _ =>
    (Decimal.readScientific? (body.map Text.foldAscii)).bind fun (c, e) =>
      ofReal? (Binary64.ofScientific negative c e)
  | _ => none

/-- The moment that a text in a request stands for; it may lie in the year 0, which no clock
shows. -/
def ofRequestText? (t : String) : Option Moment :=
  let cs := t.toList
  (requestDateTime cs).orElse fun _ =>
    (ofNumberText? cs).orElse fun _ =>
      match requestDate cs with
      | some (d, []) => some ⟨d * Moment.day, none⟩
      | _ => none

example : ofReal? (Binary64.ofScientific true 125 (-2)) = some (utc (epoch - 1250000)) := by
  decide +kernel

end Moment

end Custody
