import Custody.Proofs.Clock
import Custody.Proofs.Consistency
import Custody.Proofs.Magnitude

/-!
# What is compared

The same state can be written in many ways: an amount with one exponent or another, a deadline by one clock
or another, a truth as a number. Each side of a comparison is brought to the common form by itself, and the
forms are compared. What is found is exactly where the two sides mean something else, so that sides without
a difference are those of one meaning.

> `exists_normalized`: a side that means something comes to a form that tells it.
> `diff_of_means`: the differences of the forms are those of the meanings.
> `agree_iff`: sides without a difference mean the same.
> `compared_by_meaning`: all of it, and that it does not matter which side is which.
-/

namespace Custody

/-! ## Fields -/

/-- What is compared. -/
inductive ComparedField where
  | status | amount | released | transaction | deadline
deriving DecidableEq, Repr

namespace ComparedField

/-- The name of a field in a report. -/
def name : ComparedField → String
  | .status => "status"
  | .amount => "amount"
  | .released => "is_released"
  | .transaction => "release_transaction_hash"
  | .deadline => "expires_at"

/-- The fields in the order of a report. -/
def all : List ComparedField := [.status, .amount, .released, .transaction, .deadline]

theorem mem_all (x : ComparedField) : x ∈ all := by
  cases x <;> decide

end ComparedField

/-- What a side has in a field. -/
def Projection.valueAt (p : Projection) : ComparedField → FieldValue
  | .status => .json (.ofLoose p.status)
  | .amount => .number p.amount
  | .released => .json (.bool p.released)
  | .transaction => .json p.transaction
  | .deadline => .moment p.deadline

/-- The same difference seen from the other side. -/
def Mismatch.swap (m : Mismatch) : Mismatch := ⟨m.field, m.onLedger, m.stored⟩

/-! ## Meanings -/

/-- What a state is, however it is written: the amount is a number, and the deadline one of the seconds of
UTC. -/
structure Meaning where
  status : LooseText
  amount : ℚ
  released : Bool
  transaction : Option LooseText
  deadline : Option Int
deriving DecidableEq

/-- Whether two states are something else in a field. -/
def Meaning.differs (μ ν : Meaning) : ComparedField → Bool
  | .status => μ.status ≠ ν.status
  | .amount => μ.amount ≠ ν.amount
  | .released => μ.released ≠ ν.released
  | .transaction => μ.transaction ≠ ν.transaction
  | .deadline => μ.deadline ≠ ν.deadline

/-- A side means a state. Its amount is a finite decimal, its transaction a text or null, and its deadline, if
it has one, lies in the years 1 to 9999 of UTC. -/
structure RawState.Means (s : RawState) (μ : Meaning) : Prop where
  status : s.status.spelled = μ.status
  amount : ∃ d, s.amount.toDecimal = .ok d ∧ d.isFinite = true ∧ d.value = μ.amount
  released : s.released.truthy = μ.released
  transaction : s.transaction = Json.ofLoose? μ.transaction
  deadline : (s.deadline.map fun m => m.instant / Moment.second) = μ.deadline
  inYears : ∀ m, s.deadline = some m → Moment.wallInRange m.instant = true

/-- What a record says of its escrow. -/
def Escrow.meaning (e : Escrow) : Meaning :=
  ⟨.sound (word e.status), e.amount.value, e.released, e.releaseTransaction.map .sound,
    e.deadline.map fun m => m.instant / Moment.second⟩

/-- The common form of a side: its values are kept, and the deadline is cut to its second. -/
structure RawState.Normalized (s : RawState) (p : Projection) : Prop where
  status : p.status = s.status.spelled
  amount : s.amount.toDecimal = .ok p.amount
  released : p.released = s.released.truthy
  transaction : p.transaction = s.transaction
  deadline : p.deadline = s.deadline.map fun m => Moment.utc (Moment.floorSecond m.instant)

/-- Two sides can be compared, and no difference is found. -/
def RawState.Agree (a b : RawState) : Prop :=
  ∃ p q, a.project = .ok p ∧ b.project = .ok q ∧ diff p q = .ok []

section Meanings

variable {a b s : RawState} {p q : Projection} {μ ν : Meaning}

theorem Meaning.differs_comm (μ ν : Meaning) : μ.differs ν = ν.differs μ := by
  funext x
  cases x <;> simp only [differs, ne_comm]

/-- States that are the same in every field are the same. -/
theorem Meaning.filter_differs_eq_nil_iff :
    ComparedField.all.filter (μ.differs ν) = [] ↔ μ = ν := by
  rw [List.filter_eq_nil_iff]
  constructor
  · intro h
    have hsame (x : ComparedField) : μ.differs ν x = false := by
      simpa using h x x.mem_all
    have hstatus := hsame .status
    have hamount := hsame .amount
    have hreleased := hsame .released
    have htransaction := hsame .transaction
    have hdeadline := hsame .deadline
    simp only [differs, decide_eq_false_iff_not, not_not] at *
    cases μ
    cases ν
    simp_all
  · rintro rfl x -
    cases x <;> simp [differs]

/-- A side that means something comes to the common form. -/
theorem exists_normalized (h : s.Means μ) : ∃ p, s.project = .ok p ∧ s.Normalized p := by
  obtain ⟨d, hd, -, -⟩ := h.amount
  have hdeadline : normalizeMoment s.deadline =
      .ok (s.deadline.map fun m => Moment.utc (Moment.floorSecond m.instant)) := by
    cases hm : s.deadline with
    | none => rfl
    | some m => exact Moment.normalizeMoment_eq_ok_iff.mpr ⟨h.inYears m hm, rfl⟩
  refine ⟨⟨s.status.spelled, d, s.released.truthy, s.transaction, _⟩, ?_, ⟨rfl, hd, rfl, rfl, rfl⟩⟩
  simp only [RawState.project, hd, hdeadline]
  rfl

theorem ofText?_eq_ofLoose? (x : Option String) : Json.ofText? x = Json.ofLoose? (x.map .sound) := by
  cases x <;> rfl

/-- A record means what it says. -/
theorem Escrow.means_meaning {e : Escrow} (hamount : e.amount.isFinite = true)
    (hdeadline : ∀ m, e.deadline = some m → Moment.wallInRange m.instant = true) :
    e.state.Means e.meaning :=
  ⟨rfl, ⟨e.amount, rfl, hamount, rfl⟩, rfl, ofText?_eq_ofLoose? _, rfl, hdeadline⟩

/-- Transactions are the same just if their texts are, or both are missing. -/
theorem equals_ofLoose? (x y : Option LooseText) :
    (Json.ofLoose? x).equals (Json.ofLoose? y) = decide (x = y) := by
  rcases x with _ | x | x <;> rcases y with _ | y | y <;>
    simp [Json.ofLoose?, Json.ofLoose, Json.equals, Json.same, Bool.beq_eq_decide_eq]

/-- Moments that are cut to their seconds are the same just if the seconds are. -/
theorem utc_floorSecond_eq_iff {m n : Moment} :
    Moment.utc (Moment.floorSecond m.instant) = Moment.utc (Moment.floorSecond n.instant) ↔
      m.instant / Moment.second = n.instant / Moment.second := by
  unfold Moment.utc Moment.floorSecond
  rw [Moment.mk.injEq, and_iff_left rfl]
  exact mul_left_inj' (by decide)

/-- Amounts in the common form are the same just if they are the same number. -/
theorem equals?_of_means (ha : a.Means μ) (hb : b.Means ν) (hp : a.Normalized p)
    (hq : b.Normalized q) :
    Decimal.equals? p.amount q.amount = some (decide (μ.amount = ν.amount)) := by
  obtain ⟨d, hd, hfinite, hvalue⟩ := ha.amount
  obtain ⟨e, he, hfinite', hvalue'⟩ := hb.amount
  obtain rfl : d = p.amount := Except.ok.inj (hd.symm.trans hp.amount)
  obtain rfl : e = q.amount := Except.ok.inj (he.symm.trans hq.amount)
  rw [Decimal.equals?_eq hfinite hfinite', hvalue, hvalue']

/-- So are deadlines if they lie in the same second, or both are missing. -/
theorem deadline_eq_iff_of_means (ha : a.Means μ) (hb : b.Means ν) (hp : a.Normalized p)
    (hq : b.Normalized q) : p.deadline = q.deadline ↔ μ.deadline = ν.deadline := by
  rw [hp.deadline, hq.deadline, ← ha.deadline, ← hb.deadline]
  cases a.deadline with
  | none => cases b.deadline <;> simp
  | some m =>
    cases b.deadline with
    | none => simp
    | some n =>
      simp only [Option.map_some, Option.some.injEq]
      exact utc_floorSecond_eq_iff

theorem map_filter_cons {α β : Type} (keep : α → Bool) (f : α → β) (x : α) (l : List α) :
    ((x :: l).filter keep).map f = (if keep x then [f x] else []) ++ (l.filter keep).map f := by
  cases h : keep x <;> simp [h]

/-- An entry for a field is there just if the field differs. -/
theorem mismatchUnless_eq {agrees differs : Bool} (h : agrees = !differs) (field : String)
    (x y : FieldValue) :
    mismatchUnless agrees field x y = if differs then [⟨field, x, y⟩] else [] := by
  subst h
  cases differs <;> rfl

/-- The differences of the common forms are those of the meanings. -/
theorem diff_of_means (ha : a.Means μ) (hb : b.Means ν) (hp : a.Normalized p) (hq : b.Normalized q) :
    diff p q = .ok ((ComparedField.all.filter (μ.differs ν)).map fun x =>
      ⟨x.name, p.valueAt x, q.valueAt x⟩) := by
  have hstatus : (p.status == q.status) = !μ.differs ν .status := by
    rw [hp.status, hq.status, ha.status, hb.status, beq_eq_decide]
    simp [Meaning.differs]
  have hamount : decide (μ.amount = ν.amount) = !μ.differs ν .amount := by
    simp [Meaning.differs]
  have hreleased : (p.released == q.released) = !μ.differs ν .released := by
    rw [hp.released, hq.released, ha.released, hb.released, beq_eq_decide]
    simp [Meaning.differs]
  have htransaction : p.transaction.equals q.transaction = !μ.differs ν .transaction := by
    rw [hp.transaction, hq.transaction, ha.transaction, hb.transaction, equals_ofLoose?]
    simp [Meaning.differs]
  have hdeadline : (p.deadline == q.deadline) = !μ.differs ν .deadline := by
    rw [Bool.eq_iff_iff, beq_iff_eq, deadline_eq_iff_of_means ha hb hp hq]
    simp [Meaning.differs]
  unfold diff
  rw [equals?_of_means ha hb hp hq]
  dsimp only
  rw [mismatchUnless_eq hstatus, mismatchUnless_eq hamount, mismatchUnless_eq hreleased,
    mismatchUnless_eq htransaction, mismatchUnless_eq hdeadline]
  simp only [ComparedField.all, map_filter_cons, List.filter_nil, List.map_nil, List.append_nil,
    List.append_assoc]
  rfl

/-- Sides without a difference are those of one meaning. -/
theorem agree_iff (ha : a.Means μ) (hb : b.Means ν) : a.Agree b ↔ μ = ν := by
  obtain ⟨p, hp, hnormal⟩ := exists_normalized ha
  obtain ⟨q, hq, hnormal'⟩ := exists_normalized hb
  have hdiff := diff_of_means ha hb hnormal hnormal'
  rw [← Meaning.filter_differs_eq_nil_iff]
  constructor
  · rintro ⟨p', q', hp', hq', hnone⟩
    obtain rfl : p = p' := Except.ok.inj (hp.symm.trans hp')
    obtain rfl : q = q' := Except.ok.inj (hq.symm.trans hq')
    exact List.map_eq_nil_iff.mp (Except.ok.inj (hdiff.symm.trans hnone))
  · intro h
    rw [h] at hdiff
    exact ⟨p, q, hp, hq, hdiff⟩

end Meanings

/-- A record with a finite amount and a deadline in the years 1 to 9999 means what it says, as does any other
side with such values. Two sides that mean something come to forms that tell it, with all values as they are
and the deadline cut to its second. The comparison finds a difference in exactly the fields in which they mean
something else: texts that are not the same, amounts that are not the same number, truths that are not the
same, transactions of which one is missing or that are not the same text, deadlines of which one is missing or
that lie in other seconds. Each is there once, in the order of the fields, with what the two forms have there;
and seen from the other side there are the same differences with their values swapped. So sides without a
difference are those of one meaning, which makes this an equivalence. -/
theorem compared_by_meaning {a b : RawState} {μ ν : Meaning} (ha : a.Means μ) (hb : b.Means ν) :
    (∀ e : Escrow, e.amount.isFinite = true →
      (∀ m, e.deadline = some m → Moment.wallInRange m.instant = true) → e.state.Means e.meaning) ∧
    (∃ p q ms, a.project = .ok p ∧ b.project = .ok q ∧ a.Normalized p ∧ b.Normalized q ∧
      ms = (ComparedField.all.filter (μ.differs ν)).map
        (fun x => ⟨x.name, p.valueAt x, q.valueAt x⟩) ∧
      diff p q = .ok ms ∧ diff q p = .ok (ms.map Mismatch.swap)) ∧
    (a.Agree b ↔ μ = ν) ∧
    Equivalence fun s t : { s : RawState // ∃ μ, s.Means μ } => s.val.Agree t.val := by
  obtain ⟨p, hp, hnormal⟩ := exists_normalized ha
  obtain ⟨q, hq, hnormal'⟩ := exists_normalized hb
  have hdiff := diff_of_means ha hb hnormal hnormal'
  refine ⟨fun _ => Escrow.means_meaning, ⟨p, q, _, hp, hq, hnormal, hnormal', rfl, hdiff, ?_⟩,
    agree_iff ha hb, ?_, ?_, ?_⟩
  · rw [diff_of_means hb ha hnormal' hnormal, Meaning.differs_comm, List.map_map]
    rfl
  · rintro ⟨s, σ, hs⟩
    exact (agree_iff hs hs).mpr rfl
  · rintro ⟨s, σ, hs⟩ ⟨t, τ, ht⟩ h
    exact (agree_iff ht hs).mpr ((agree_iff hs ht).mp h).symm
  · rintro ⟨s, σ, hs⟩ ⟨t, τ, ht⟩ ⟨u, υ, hu⟩ h h'
    exact (agree_iff hs hu).mpr (((agree_iff hs ht).mp h).trans ((agree_iff ht hu).mp h'))

/-- A view of the ledger: an amount, whether it is released, in which transaction, and until when. -/
def viewOf (amount : Decimal) (released transaction : Json) (deadline : Moment) : RawState :=
  ⟨.text "ACTIVE", .number amount, released, transaction, some deadline⟩

/-- An amount of 100.5 is written in two ways, nothing is released in two ways, and a deadline a microsecond
after half past nine is the same second on a clock that is two hours ahead. Another amount and a transaction
are differences, and these are the only ones. -/
theorem compared_by_meaning_spelledViews :
    let morning : Moment := (ClockFace.mk ⟨2026, 3, 1⟩ 9 30 0 1).moment none
    let ahead : Moment := (ClockFace.mk ⟨2026, 3, 1⟩ 11 30 0 0).moment (some (7200 * Moment.second))
    let a := viewOf (.finite false 1005 (-1)) (.bool false) .null morning
    let b := viewOf (.finite false 10050000000 (-8)) (.int 0) .null ahead
    let c := viewOf (.finite false 1006 (-1)) (.bool false) (.text "abc") ahead
    a.Agree b ∧ ∃ p q ms, a.project = .ok p ∧ c.project = .ok q ∧ diff p q = .ok ms ∧
      ms.map (·.field) = ["amount", "release_transaction_hash"] := by
  intro morning ahead a b c
  let second : Int := ClockFace.count ⟨⟨2026, 3, 1⟩, 9, 30, 0, 0⟩ / Moment.second
  let μ : Meaning := ⟨.sound "ACTIVE", 201 / 2, false, none, some second⟩
  let ν : Meaning := ⟨.sound "ACTIVE", 503 / 5, false, some (.sound "abc"), some second⟩
  have hmorning : ∀ m, some morning = some m → Moment.wallInRange m.instant = true := by
    rintro m ⟨⟩
    decide
  have hahead : ∀ m, some ahead = some m → Moment.wallInRange m.instant = true := by
    rintro m ⟨⟩
    decide
  have hvalue (n : Nat) (x : Int) : (Decimal.finite false n x).value = n * 10 ^ x := rfl
  have ha : a.Means μ :=
    ⟨rfl, ⟨_, rfl, rfl, by rw [hvalue]; norm_num [μ]⟩, rfl, rfl, by decide, hmorning⟩
  have hb : b.Means μ :=
    ⟨rfl, ⟨_, rfl, rfl, by rw [hvalue]; norm_num [μ]⟩, rfl, rfl, by decide, hahead⟩
  have hc : c.Means ν :=
    ⟨rfl, ⟨_, rfl, rfl, by rw [hvalue]; norm_num [ν]⟩, rfl, rfl, by decide, hahead⟩
  obtain ⟨-, -, hagree, -⟩ := compared_by_meaning ha hb
  obtain ⟨-, ⟨p, q, ms, hp, hq, -, -, hms, hdiff, -⟩, -⟩ := compared_by_meaning ha hc
  refine ⟨hagree.mpr rfl, p, q, ms, hp, hq, hdiff, ?_⟩
  have hdiffers : ComparedField.all.filter (μ.differs ν) = [.amount, .transaction] := by
    decide +kernel
  rw [hms, hdiffers]
  rfl

end Custody
