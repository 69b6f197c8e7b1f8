import Custody.Proofs.Calendar
import Custody.Proofs.Expiry
import Custody.Time.IsoReader

/-!
# The second of a moment

What a clock shows is a day and a time of day; from one microsecond to the next it goes on by carrying over,
from the microseconds up to the years. A moment counts how often it has done so, so that clocks apart by an
offset are a difference of counts, across all that is carried on the way. The second of a moment is what a
clock of UTC shows then, without its microseconds, and it is the last whole second that is not after it.

> `count_tick`, `ahead_iff`: a clock that goes on counts up, and clocks apart are apart by their counts.
> `exists_count_eq`: a clock of the years 1 to 9999 shows each count once.
> `count_cut`: without its microseconds it shows the last whole second.
> `floored_to_second`: the second of any moment, or that there is none.
-/

namespace Custody

/-! ## Clocks -/

/-- What a clock shows. -/
structure ClockFace where
  date : CivilDate
  hour : Nat
  minute : Nat
  second : Nat
  micro : Nat
deriving DecidableEq, Repr

namespace ClockFace

/-- What a clock can show at some time. -/
structure Occurs (f : ClockFace) : Prop where
  date : f.date.Occurs
  hour : f.hour < 24
  minute : f.minute < 60
  second : f.second < 60
  micro : f.micro < 1000000

/-- What a clock of the years 1 to 9999 can show. -/
structure Shown (f : ClockFace) : Prop extends f.Occurs where
  year : f.date.year ≤ 9999

/-- What the clock shows a microsecond later. -/
def tick (f : ClockFace) : ClockFace :=
  if f.micro < 999999 then { f with micro := f.micro + 1 }
  else if f.second < 59 then { f with second := f.second + 1, micro := 0 }
  else if f.minute < 59 then { f with minute := f.minute + 1, second := 0, micro := 0 }
  else if f.hour < 23 then { f with hour := f.hour + 1, minute := 0, second := 0, micro := 0 }
  else ⟨f.date.next, 0, 0, 0, 0⟩

/-- What a clock shows that is ahead of another one, or behind it. -/
inductive Ahead (u : ClockFace) : Int → ClockFace → Prop
  | on (n : Nat) : Ahead u n (tick^[n] u)
  | back {f : ClockFace} (n : Nat) (h : tick^[n] f = u) : Ahead u (-n) f

/-- The clock without its microseconds. -/
def cut (f : ClockFace) : ClockFace := { f with micro := 0 }

/-- The microseconds of the day so far. -/
def sinceMidnight (f : ClockFace) : Nat :=
  (f.hour * 3600 + f.minute * 60 + f.second) * 1000000 + f.micro

/-- The microseconds since the beginning of the year 1. -/
def count (f : ClockFace) : Int := f.date.dayNumber * Moment.day + f.sinceMidnight

/-- The moment at which a clock shows this that has an offset from UTC, or none. -/
def moment (f : ClockFace) (offset : Option Int) : Moment := ⟨f.count, offset⟩

variable {f g u : ClockFace}

theorem count_eq (f : ClockFace) : f.count = f.date.dayNumber * 86400000000 + f.sinceMidnight := rfl

theorem Occurs.sinceMidnight_lt (h : f.Occurs) : f.sinceMidnight < 86400000000 := by
  obtain ⟨-, hhour, hminute, hsecond, hmicro⟩ := h
  unfold sinceMidnight
  omega

theorem Occurs.tick (h : f.Occurs) : f.tick.Occurs := by
  obtain ⟨hdate, hhour, hminute, hsecond, hmicro⟩ := h
  unfold ClockFace.tick
  split_ifs with hm hs hn hh
  · exact ⟨hdate, hhour, hminute, hsecond, Nat.succ_lt_succ hm⟩
  · exact ⟨hdate, hhour, hminute, Nat.succ_lt_succ hs, Nat.succ_pos _⟩
  · exact ⟨hdate, hhour, Nat.succ_lt_succ hn, Nat.succ_pos _, Nat.succ_pos _⟩
  · exact ⟨hdate, Nat.succ_lt_succ hh, Nat.succ_pos _, Nat.succ_pos _, Nat.succ_pos _⟩
  · exact ⟨hdate.next, Nat.succ_pos _, Nat.succ_pos _, Nat.succ_pos _, Nat.succ_pos _⟩

/-- A clock that goes on counts up. -/
theorem count_tick (h : f.Occurs) : f.tick.count = f.count + 1 := by
  obtain ⟨hdate, hhour, hminute, hsecond, hmicro⟩ := h
  have hnext : f.date.next.dayNumber = f.date.dayNumber + 1 := CivilDate.dayNumber_next hdate
  unfold ClockFace.tick
  simp only [count_eq, sinceMidnight]
  split_ifs <;> dsimp only <;> omega

theorem iterate_tick (h : f.Occurs) (n : Nat) :
    (ClockFace.tick^[n] f).Occurs ∧ (ClockFace.tick^[n] f).count = f.count + n := by
  induction n with
  | zero => exact ⟨h, (Int.add_zero _).symm⟩
  | succ n ih =>
    rw [Function.iterate_succ_apply']
    refine ⟨ih.1.tick, ?_⟩
    rw [count_tick ih.1, ih.2]
    omega

theorem count_nonneg (f : ClockFace) : 0 ≤ f.count := by
  rw [count_eq]
  omega

/-- No two clocks count the same. -/
theorem count_injective (hf : f.Occurs) (hg : g.Occurs) (h : f.count = g.count) : f = g := by
  rw [count_eq, count_eq] at h
  have hlt := hf.sinceMidnight_lt
  have hlt' := hg.sinceMidnight_lt
  have hdate : f.date = g.date := CivilDate.dayNumber_injective hf.date hg.date (by omega)
  rw [hdate] at h
  have htime : f.sinceMidnight = g.sinceMidnight := by omega
  obtain ⟨-, hhour, hminute, hsecond, hmicro⟩ := hf
  obtain ⟨-, hhour', hminute', hsecond', hmicro'⟩ := hg
  obtain ⟨d, a, b, c, e⟩ := f
  obtain ⟨d', a', b', c', e'⟩ := g
  unfold sinceMidnight at htime
  dsimp only at *
  obtain rfl : e = e' := by omega
  obtain rfl : c = c' := by omega
  obtain rfl : b = b' := by omega
  obtain rfl : a = a' := by omega
  rw [hdate]

/-- Clocks that are apart are apart by their counts. -/
theorem ahead_iff (hu : u.Occurs) (hf : f.Occurs) {n : Int} :
    u.Ahead n f ↔ f.count = u.count + n := by
  constructor
  · rintro (⟨n⟩ | ⟨n, h⟩)
    · exact (iterate_tick hu n).2
    · have := (iterate_tick hf n).2
      rw [h] at this
      omega
  · intro h
    rcases Int.le_total 0 n with hn | hn
    · obtain ⟨m, rfl⟩ := Int.eq_ofNat_of_zero_le hn
      obtain ⟨hoccurs, hcount⟩ := iterate_tick hu m
      rw [count_injective hf hoccurs (h.trans hcount.symm)]
      exact .on m
    · obtain ⟨m, hm⟩ := Int.eq_ofNat_of_zero_le (Int.neg_nonneg.mpr hn)
      obtain ⟨hoccurs, hcount⟩ := iterate_tick hf m
      obtain rfl : n = -(m : Int) := by omega
      exact .back m (count_injective hoccurs hu (by omega))

/-- The years 1 to 9999 end with the last count. -/
theorem Occurs.year_le_iff (h : f.Occurs) :
    f.date.year ≤ 9999 ↔ Moment.wallInRange f.count = true := by
  have hlt := h.sinceMidnight_lt
  have hnonneg := f.count_nonneg
  have hend : Moment.wallEnd = 3652059 * 86400000000 := rfl
  have hyears : daysBeforeYear (9999 + 1) = 3652059 := by decide
  rw [h.date.year_le_iff, Moment.wallInRange, Bool.and_eq_true, decide_eq_true_iff, decide_eq_true_iff,
    hend, hyears]
  rw [count_eq] at *
  omega

/-- What a clock of the years 1 to 9999 shows at a count. -/
def ofCount (i : Int) : ClockFace :=
  let r := (i % Moment.day).toNat
  ⟨Moment.date i, r / 3600000000, r / 60000000 % 60, r / 1000000 % 60, r % 1000000⟩

theorem ofCount_spec {i : Int} (h : 0 ≤ i) : (ofCount i).Occurs ∧ (ofCount i).count = i := by
  obtain ⟨hdate, hnumber⟩ := CivilDate.ofDayNumber_spec (i / 86400000000).toNat
  have hrest : (i % Moment.day).toNat < 86400000000 := by
    rw [show Moment.day = 86400000000 from rfl]
    omega
  constructor
  · constructor
    case date => exact hdate
    all_goals
      dsimp only [ofCount]
      omega
  · have hnumber' : (ofCount i).date.dayNumber = (i / 86400000000).toNat := hnumber
    rw [count_eq, hnumber', sinceMidnight]
    dsimp only [ofCount]
    rw [show Moment.day = 86400000000 from rfl] at *
    omega

/-- It shows each count at some time. -/
theorem exists_count_eq {i : Int} (h : Moment.wallInRange i = true) :
    ∃ f : ClockFace, f.Shown ∧ f.count = i := by
  have hnonneg : 0 ≤ i := by
    unfold Moment.wallInRange at h
    exact of_decide_eq_true (Bool.and_eq_true_iff.mp h).1
  obtain ⟨hoccurs, hcount⟩ := ofCount_spec hnonneg
  have hyear := hoccurs.year_le_iff.mpr (by rwa [hcount])
  exact ⟨ofCount i, ⟨hoccurs, hyear⟩, hcount⟩

/-- Without its microseconds a clock shows the last whole second. -/
theorem count_cut (h : f.Occurs) : f.cut.count = Moment.floorSecond f.count := by
  have hmicro := h.micro
  unfold Moment.floorSecond
  rw [count_eq, count_eq, show Moment.second = 1000000 from rfl, sinceMidnight, sinceMidnight]
  dsimp only [cut]
  omega

/-- A moment that is read has the parts of what the clock shows. -/
theorem ofParts_eq (h : f.Shown) {offset : Option Int}
    (hoffset : ∀ o, offset = some o → -Moment.day < o ∧ o < Moment.day) (complete : Bool) :
    Moment.ofParts f.date ⟨f.hour, f.minute, f.second, f.micro, complete⟩ offset =
      .ok (f.moment offset) := by
  obtain ⟨⟨⟨hyear, hmonth, hday⟩, hhour, hminute, hsecond, hmicro⟩, hlast⟩ := h
  have hnear : ¬(offset.any fun o => decide (Moment.day ≤ o ∨ o ≤ -Moment.day)) = true := by
    cases offset with
    | none => exact Bool.false_ne_true
    | some o =>
      have := hoffset o rfl
      simp only [Option.any_some, decide_eq_true_iff]
      omega
  unfold Moment.ofParts
  rw [if_neg hnear, if_neg (by omega), if_neg (by omega), if_neg (by omega),
    if_neg (Nat.not_lt.mpr (Nat.le_of_lt_succ hhour)),
    if_neg (Nat.not_lt.mpr (Nat.le_of_lt_succ hminute)),
    if_neg (Nat.not_lt.mpr (Nat.le_of_lt_succ hsecond))]
  rfl

end ClockFace

/-! ## Seconds -/

/-- A moment of UTC is the last whole second that is not after another moment. -/
structure Moment.IsSecondOf (n m : Moment) : Prop where
  utc : n.offset = some 0
  whole : Moment.second ∣ n.instant
  le : n.instant ≤ m.instant
  last : ∀ i, Moment.second ∣ i → i ≤ m.instant → i ≤ n.instant
  near : m.instant < n.instant + Moment.second

/-- The moment that a cut leaves is such a second. -/
theorem Moment.isSecondOf_utc (m : Moment) : (utc (floorSecond m.instant)).IsSecondOf m where
  utc := rfl
  whole := by
    rw [instant_utc]
    exact Int.dvd_mul_left ..
  le := by
    rw [instant_utc]
    exact floorSecond_le _
  last i hi hle := by
    rw [instant_utc]
    have hself : floorSecond i = i := Int.ediv_mul_cancel hi
    exact hself ▸ floorSecond_mono hle
  near := by
    rw [instant_utc]
    exact lt_floorSecond_add _

/-- A moment comes to the last second that is not after it, and to none outside the years 1 to 9999 of
UTC. -/
theorem Moment.normalizeMoment_eq_ok_iff {m n : Moment} : normalizeMoment (some m) = .ok (some n) ↔
    wallInRange m.instant = true ∧ n = utc (floorSecond m.instant) := by
  rw [normalizeMoment_some]
  split
  next h => simp [h, eq_comm]
  next h => simp [h]

/-- What a moment comes to stays as it is. -/
theorem Moment.normalizeMoment_of_normal {m n : Moment} (h : normalizeMoment (some m) = .ok (some n)) :
    normalizeMoment (some n) = .ok (some n) := by
  obtain ⟨hrange, rfl⟩ := normalizeMoment_eq_ok_iff.mp h
  have hle := floorSecond_le m.instant
  have hnonneg : 0 ≤ m.instant → 0 ≤ floorSecond m.instant := floorSecond_mono
  rw [normalizeMoment_eq_ok_iff, instant_utc, floorSecond_floorSecond]
  unfold wallInRange at *
  rw [Bool.and_eq_true, decide_eq_true_iff, decide_eq_true_iff] at *
  exact ⟨⟨hnonneg hrange.1, Int.lt_of_le_of_lt hle hrange.2⟩, rfl⟩

/-- What a clock of UTC shows is the instant of the moment. -/
theorem ClockFace.ahead_iff_instant {u f : ClockFace} (hu : u.Occurs) (hf : f.Occurs)
    (offset : Option Int) : u.Ahead (offset.getD 0) f ↔ u.count = (f.moment offset).instant := by
  rw [ahead_iff hu hf]
  unfold moment Moment.instant
  dsimp only
  omega

/-- Whatever a clock of the years 1 to 9999 shows, with whatever offset from UTC or without one, is a moment,
and it is the one that is read where the offset is less than a day. If a clock of UTC shows something then, in
these years too, the moment comes to that without its microseconds; and if not, to none. What it comes to is
the last whole second of UTC that is not after the moment, less than a second before it, and it comes to
itself; moments of one instant come to one second, and an earlier moment to no later one. -/
theorem floored_to_second {f : ClockFace} (hf : f.Shown) (offset : Option Int) :
    let m := f.moment offset
    ((∀ o, offset = some o → -Moment.day < o ∧ o < Moment.day) → ∀ complete,
      Moment.ofParts f.date ⟨f.hour, f.minute, f.second, f.micro, complete⟩ offset = .ok m) ∧
    (∀ u : ClockFace, u.Shown → u.Ahead (offset.getD 0) f →
      normalizeMoment (some m) = .ok (some (u.cut.moment (some 0)))) ∧
    ((¬∃ u : ClockFace, u.Shown ∧ u.Ahead (offset.getD 0) f) →
      normalizeMoment (some m) = .error .outOfRange) ∧
    ∀ n, normalizeMoment (some m) = .ok (some n) →
      n.IsSecondOf m ∧ normalizeMoment (some n) = .ok (some n) ∧
      ∀ (g : ClockFace) (offset' : Option Int) (k : Moment), g.Shown →
        normalizeMoment (some (g.moment offset')) = .ok (some k) →
        (m.instant = (g.moment offset').instant → n = k) ∧
        (m.instant ≤ (g.moment offset').instant → n.instant ≤ k.instant) := by
  intro m
  refine ⟨ClockFace.ofParts_eq hf, fun u hu hahead => ?_, fun hnone => ?_, fun n hn => ?_⟩
  · have hcount := (ClockFace.ahead_iff_instant hu.toOccurs hf.toOccurs offset).mp hahead
    have hrange := hu.year_le_iff.mp hu.year
    rw [hcount] at hrange
    refine Moment.normalizeMoment_eq_ok_iff.mpr ⟨hrange, ?_⟩
    rw [← hcount, ← ClockFace.count_cut hu.toOccurs]
    rfl
  · have hrange : ¬Moment.wallInRange m.instant = true := fun hrange => by
      obtain ⟨u, hu, hcount⟩ := ClockFace.exists_count_eq hrange
      exact hnone ⟨u, hu, (ClockFace.ahead_iff_instant hu.toOccurs hf.toOccurs offset).mpr hcount⟩
    rw [Moment.normalizeMoment_some, if_neg hrange]
  · obtain ⟨hrange, rfl⟩ := Moment.normalizeMoment_eq_ok_iff.mp hn
    refine ⟨m.isSecondOf_utc, Moment.normalizeMoment_of_normal hn, fun g offset' k _ hk => ?_⟩
    obtain ⟨-, rfl⟩ := Moment.normalizeMoment_eq_ok_iff.mp hk
    rw [Moment.instant_utc, Moment.instant_utc]
    exact ⟨fun h => by rw [h], Moment.floorSecond_mono⟩

/-- A quarter of a second after half past midnight, on the day after a February with 29 days. -/
def leapNight : ClockFace := ⟨⟨2024, 3, 1⟩, 0, 30, 0, 250000⟩

/-- If a clock that shows this is ahead of UTC by half an hour, half a second and a microsecond, then it is
still the 29th of February in UTC. And when the first year begins on a clock that is ahead by a second, it
has not begun in UTC. -/
theorem floored_to_second_leapNight :
    let early : ClockFace := ⟨⟨1, 1, 1⟩, 0, 0, 0, 0⟩
    Moment.ofIso "2024-03-01T00:30:00.250000+00:30:00.500001" =
      .ok (leapNight.moment (some 1800500001)) ∧
    normalizeMoment (some (leapNight.moment (some 1800500001))) =
      .ok (some ((ClockFace.mk ⟨2024, 2, 29⟩ 23 59 59 0).moment (some 0))) ∧
    normalizeMoment (some (early.moment (some 1000000))) = .error .outOfRange := by
  intro early
  have hleap : leapNight.Shown :=
    ⟨⟨⟨by decide, by decide, by decide⟩, by decide, by decide, by decide, by decide⟩, by decide⟩
  have hearly : early.Shown :=
    ⟨⟨⟨by decide, by decide, by decide⟩, by decide, by decide, by decide, by decide⟩, by decide⟩
  obtain ⟨-, hseen, -⟩ := floored_to_second hleap (some 1800500001)
  obtain ⟨-, -, hunseen, -⟩ := floored_to_second hearly (some 1000000)
  refine ⟨by decide +kernel, ?_, hunseen ?_⟩
  · let utc : ClockFace := ⟨⟨2024, 2, 29⟩, 23, 59, 59, 749999⟩
    have hutc : utc.Shown :=
      ⟨⟨⟨by decide, by decide, by decide⟩, by decide, by decide, by decide, by decide⟩, by decide⟩
    have hcount : leapNight.count = utc.count + 1800500001 := by decide
    have hahead := (ClockFace.ahead_iff hutc.toOccurs hleap.toOccurs).mpr hcount
    exact hseen utc hutc hahead
  · rintro ⟨u, hu, hahead⟩
    have hcount := (ClockFace.ahead_iff hu.toOccurs hearly.toOccurs).mp hahead
    have hnonneg := u.count_nonneg
    have hzero : early.count = 0 := by decide
    rw [hzero, Option.getD_some] at hcount
    omega

end Custody
