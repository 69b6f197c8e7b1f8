import Custody.Number.Power
import Custody.Time.Moment
import Custody.Text.Quoted

/-!
# Reading standard date-times

A date as year, month and day or as year, week and day, with or without hyphens; any one character;
a time of two to six digits with or without colons and a fraction; a distance from UTC. Where the
date ends is decided by the first characters alone, and digits of a fraction beyond the sixth are
skipped.
-/

namespace Custody

namespace Moment

/-- Why a text is no date-time. -/
inductive IsoFault where
  | malformed (text : String)
  | year (y : Nat)
  | month
  | day
  | hour
  | minute
  | second
  | offset (o : Int)
deriving DecidableEq, Repr

/-- A duration as messages show it: days, seconds and microseconds, those that are zero left
out. -/
def durationLiteral (o : Int) : String :=
  let d := o / Moment.day
  let r := o % Moment.day
  let s := r / Moment.second
  let u := r % Moment.second
  let parts := (if d = 0 then [] else ["days=" ++ toString d]) ++
    (if s = 0 then [] else ["seconds=" ++ toString s]) ++
    (if u = 0 then [] else ["microseconds=" ++ toString u])
  "datetime.timedelta(" ++ (if parts.isEmpty then "0" else ", ".intercalate parts) ++ ")"

/-- The text of the complaint. -/
def IsoFault.message : IsoFault → String
  | .malformed s => "Invalid isoformat string: " ++ Text.quoted s
  | .year y => "year " ++ toString y ++ " is out of range"
  | .month => "month must be in 1..12"
  | .day => "day is out of range for month"
  | .hour => "hour must be in 0..23"
  | .minute => "minute must be in 0..59"
  | .second => "second must be in 0..59"
  | .offset o =>
    "offset must be a timedelta strictly between -timedelta(hours=24) and timedelta(hours=24), not "
      ++ durationLiteral o ++ "."

/-- A number of exactly `n` digits, and the rest. -/
def takeDigits : Nat → Nat → List Char → Option (Nat × List Char)
  | 0, acc, cs => some (acc, cs)
  | _ + 1, _, [] => none
  | n + 1, acc, c :: cs => (Text.asciiDigit? c).bind fun d => takeDigits n (acc * 10 + d) cs

/-- Where the date ends: after 7, 8 or 10 characters, by whether the fifth is a hyphen and whether
the year is followed by a week. -/
def dateLength (cs : List Char) : Nat :=
  let at' (i : Nat) : Option Char := cs[i]?
  let digitAt (i : Nat) : Bool := (at' i).any Text.isAsciiDigit
  if cs.length = 7 then 7
  else if at' 4 = some '-' then
    if at' 5 = some 'W' then
      if at' 8 = some '-' then (if digitAt 10 then 8 else 10) else 8
    else 10
  else if at' 4 = some 'W' then
    let run := ((cs.drop 7).takeWhile Text.isAsciiDigit).length
    let stop := 7 + run
    if stop < 9 then stop else if stop % 2 = 0 then 7 else 8
  else 8

/-- A day given by year, week and day of the week. The weeks before the first year lie in no
month. -/
def ofWeek (y w d : Nat) : Option CivilDate :=
  if w = 0 ∨ 53 < w ∨ (w = 53 ∧ !hasLongYear y) ∨ d = 0 ∨ 7 < d then none
  else if y = 0 then some ⟨1, 0, 1⟩
  else some (CivilDate.ofDayNumber (firstMonday y + ((w - 1) * 7 + (d - 1) : Nat)).toNat)

/-- The date at the start of a text, where the date is said to be `length` characters long. -/
def readDate (length : Nat) (cs : List Char) : Option CivilDate := do
  let (y, rest) ← takeDigits 4 0 cs
  let (hyphens, rest) := match rest with
    | '-' :: r => (true, r)
    | r => (false, r)
  let hyphen (r : List Char) : Option (List Char) :=
    if hyphens then (match r with | '-' :: r => some r | _ => none) else some r
  match rest with
  | 'W' :: rest =>
    let (w, rest) ← takeDigits 2 0 rest
    if cs.length - rest.length < length then
      let rest ← hyphen rest
      let (d, _) ← takeDigits 1 0 rest
      ofWeek y w d
    else ofWeek y w 1
  | rest =>
    let (m, rest) ← takeDigits 2 0 rest
    let rest ← hyphen rest
    let (d, _) ← takeDigits 2 0 rest
    some ⟨y, m, d⟩

/-- The parts of a time of day; `complete` when the text was used up. -/
structure ClockReading where
  hour : Nat
  minute : Nat
  second : Nat
  micro : Nat
  complete : Bool
deriving Repr

/-- A clock reading in microseconds. -/
def ClockReading.total (r : ClockReading) : Int :=
  ((r.hour * 3600 + r.minute * 60 + r.second) * 1000000 + r.micro : Nat)

/-- Whether a text ends here: nothing follows, or a NUL and whatever stands behind it. -/
def isOver : List Char → Bool
  | [] => true
  | c :: _ => c = '\x00'

/-- The fraction of a second; the field ends where `stop` characters are left. -/
def readFraction (h m s : Nat) (cs : List Char) (stop : Nat) : Option ClockReading := do
  let n := min 6 (cs.length - stop)
  let (u, rest) ← takeDigits n 0 cs
  let rest := rest.dropWhile Text.isAsciiDigit
  some ⟨h, m, s, u * tenTo (6 - n), isOver rest⟩

/-- The fields of two digits from the `i`-th on; whether colons divide them is settled after the
first. -/
def readClock (stop : Nat) : Nat → Bool → List Nat → List Char → Option ClockReading
  | 0, _, acc, cs =>
    readFraction (acc.getD 0 0) (acc.getD 1 0) (acc.getD 2 0) cs stop
  | left + 1, colons, acc, cs => do
    let (v, rest) ← takeDigits 2 0 cs
    let acc := acc ++ [v]
    let field (i : Nat) : Nat := acc.getD i 0
    match rest with
    | [] => some ⟨field 0, field 1, field 2, 0, true⟩
    | c :: after =>
      let colons := if left = 2 then c = ':' else colons
      if after.length ≤ stop then
        if c.toNat < 128 then some ⟨field 0, field 1, field 2, 0, isOver rest⟩ else none
      else if colons && c = ':' then readClock stop left colons acc after
      else if c = '.' ∨ c = ',' then readFraction (field 0) (field 1) (field 2) after stop
      else if !colons then readClock stop left colons acc rest
      else none

/-- A time of day and the distance from UTC, if one is given. -/
def readTime (cs : List Char) : Option (ClockReading × Option Int) :=
  let isZone (c : Char) : Bool := c = '+' || c = '-' || c = 'Z'
  let zone := cs.dropWhile fun c => !isZone c
  match readClock zone.length 3 true [] cs with
  | none => none
  | some r =>
    match zone with
    | [] => if r.complete then some (r, none) else none
    | 'Z' :: rest => if isOver rest then some (r, some 0) else none
    | sign :: rest =>
      match readClock 0 3 true [] rest with
      | some o =>
        if o.complete then
          let whole : Int := (o.hour * 3600 + o.minute * 60 + o.second : Nat)
          let total := if whole = 0 then 0 else o.total
          some (r, some (if sign = '-' then -total else total))
        else none
      | none => none

/-- The moment with these parts, when a calendar and a clock have them. -/
def ofParts (d : CivilDate) (r : ClockReading) (offset : Option Int) : Except IsoFault Moment :=
  if offset.any fun o => Moment.day ≤ o ∨ o ≤ -Moment.day then .error (.offset (offset.getD 0))
  else if d.year < 1 ∨ 9999 < d.year then .error (.year d.year)
  else if d.month < 1 ∨ 12 < d.month then .error .month
  else if d.day < 1 ∨ daysInMonth d.year d.month < d.day then .error .day
  else if 23 < r.hour then .error .hour
  else if 59 < r.minute then .error .minute
  else if 59 < r.second then .error .second
  else .ok ⟨d.dayNumber * Moment.day + r.total, offset⟩

/-- The moment that a text stands for. -/
def ofIso (s : String) : Except IsoFault Moment :=
  let cs := s.toList
  let n := dateLength cs
  let parts : Option (CivilDate × ClockReading × Option Int) :=
    if cs.length < 7 then none
    else do
      let d ← readDate n cs
      if n < cs.length then
        let (r, o) ← readTime (cs.drop (n + 1))
        some (d, r, o)
      else some (d, ⟨0, 0, 0, 0, true⟩, none)
  match parts with
  | some (d, r, o) => ofParts d r o
  | none => .error (.malformed s)

end Moment

end Custody
