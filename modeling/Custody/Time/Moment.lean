import Custody.Time.Calendar
import Custody.Text.Digit

/-!
# Moments

A moment is what a clock on a wall shows, with the distance of that clock from UTC or without one.
A moment without is taken to be UTC where an instant is asked for. Both are counted in
microseconds, the clock from the beginning of the year 1.

> `floorSecond_le`, `lt_floorSecond_add`: an instant is cut to the last whole second not after it.
-/

namespace Custody

/-- What a clock shows, and how far it is ahead of UTC. -/
structure Moment where
  wall : Int
  offset : Option Int
deriving DecidableEq, Repr, Inhabited

namespace Moment

/-- The microseconds of a second. -/
def second : Int := 1000000

/-- The microseconds of a day. -/
def day : Int := 86400 * second

/-- The end of the year 9999, the last that a clock can show. -/
def wallEnd : Int := 3652059 * day

/-- Whether a clock can show this. -/
def wallInRange (w : Int) : Bool := 0 ≤ w && w < wallEnd

/-- The instant in UTC. -/
def instant (m : Moment) : Int := m.wall - m.offset.getD 0

/-- A moment in UTC. -/
def utc (instant : Int) : Moment := ⟨instant, some 0⟩

/-- The moment as a store keeps it: what the clock shows, without its distance from UTC. -/
def withoutOffset (m : Moment) : Moment := ⟨m.wall, none⟩

/-- An instant cut to its second. -/
def floorSecond (i : Int) : Int := i / second * second

theorem floorSecond_le (i : Int) : floorSecond i ≤ i := by
  unfold floorSecond second; omega

theorem lt_floorSecond_add (i : Int) : i < floorSecond i + second := by
  unfold floorSecond second; omega

/-- Cutting twice is cutting once. -/
theorem floorSecond_floorSecond (i : Int) : floorSecond (floorSecond i) = floorSecond i := by
  unfold floorSecond second; omega

/-- The UTC second in which a moment lies; none when that leaves the years 1 to 9999. -/
def normalize? (m : Moment) : Option Moment :=
  let i := m.instant
  if wallInRange i then some (utc (floorSecond i)) else none

/-! ## Text -/

/-- The date that a clock shows. -/
def date (w : Int) : CivilDate := CivilDate.ofDayNumber (w / day).toNat

/-- The date as text. -/
def dateText (w : Int) : String :=
  let d := date w
  Text.padded 4 d.year ++ "-" ++ Text.padded 2 d.month ++ "-" ++ Text.padded 2 d.day

/-- The time of day as text, with microseconds when there are some. -/
def timeText (w : Int) : String :=
  let r := (w % day).toNat
  let micro := r % 1000000
  let s := r / 1000000
  Text.padded 2 (s / 3600) ++ ":" ++ Text.padded 2 (s / 60 % 60) ++ ":" ++ Text.padded 2 (s % 60) ++
    (if micro = 0 then "" else "." ++ Text.padded 6 micro)

/-- The distance from UTC as text: hours and minutes, and what is finer only when there is
some. -/
def offsetText (o : Int) : String :=
  let a := o.natAbs
  let micro := a % 1000000
  let s := a / 1000000
  (if o < 0 then "-" else "+") ++ Text.padded 2 (s / 3600) ++ ":" ++ Text.padded 2 (s / 60 % 60) ++
    (if s % 60 = 0 ∧ micro = 0 then "" else ":" ++ Text.padded 2 (s % 60)) ++
    (if micro = 0 then "" else "." ++ Text.padded 6 micro)

/-- A moment with a mark between date and time. -/
def textWith (mark : String) (m : Moment) : String :=
  dateText m.wall ++ mark ++ timeText m.wall ++ (m.offset.map offsetText).getD ""

/-- The standard text of a moment. -/
def isoText (m : Moment) : String := textWith "T" m

/-- The text of a moment with a blank between date and time. -/
def spacedText (m : Moment) : String := textWith " " m

/-- The text of a moment in a response: no distance from UTC is a `Z`. -/
def responseText (m : Moment) : String :=
  dateText m.wall ++ "T" ++ timeText m.wall ++
    (match m.offset with
      | none => ""
      | some 0 => "Z"
      | some o => offsetText o)

/-- The instant in UTC as text. -/
def stamp (m : Moment) : String :=
  dateText m.instant ++ "T" ++ timeText m.instant ++ "Z"

end Moment

end Custody
