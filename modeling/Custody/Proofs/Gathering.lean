import Mathlib.Algebra.GroupWithZero.Nat
import Mathlib.Data.List.Basic
import Custody.Service

/-!
# Checks at the same time

Escrows are checked at once, by a task for each, and only so many of the tasks are at work at a time.
A task waits for a permit, reads the record, hears from the ledger, and gives the permit back.

    waiting ──→ reading ──→ asking ──→ ended
                   └────────────────────↗

The order of the steps makes no difference: each task ends with what its check comes to alone, and
the outcome stands where its escrow stands. What carries the induction is `Checking.Sound`, which
says of a task in the middle that it is on the way there.

> `Batch.exists_step`: while a task has not ended, some task can go on.
> `Batch.Run.bounded`: and there are three steps for each task at most.
> `Batch.Run.gathered`: once all have ended, the reports are those of the checks one by one.
-/

namespace Custody

/-- The reports are those of the escrows one by one. -/
theorem reports_audit (database : Option String) (s : Store) (l : SimulatedLedger)
    (ids : List Identifier) : (audit database s l ids).result.reports =
      ids.map fun x => (Check.ofEscrow database s l x).settle x := by
  simp only [audit, CheckResult.ofReports, List.map_map]
  rfl

/-- How many escrows are checked at a time. -/
def Settings.checkPermits (s : Settings) : Nat := (max 1 s.checkConcurrency).toNat

theorem Settings.checkPermits_pos (s : Settings) : 0 < s.checkPermits := by
  unfold checkPermits
  omega

/-! ## One check -/

/-- How far the check of an escrow has come. While it reads or asks it has a permit. -/
inductive Checking where
  | waiting
  | reading
  | asking (p : Projection)
  | ended (outcome : Except Failure Report)

namespace Checking

/-- Whether a check has a permit. -/
def isBusy : Checking → Bool
  | .reading | .asking _ => true
  | _ => false

/-- What a check has come to. -/
def outcome? : Checking → Option (Except Failure Report)
  | .ended o => some o
  | _ => none

theorem of_isBusy {c : Checking} (h : c.isBusy = true) : c ≠ .waiting ∧ c.outcome? = none := by
  cases c with
  | reading | asking => exact ⟨(fun hw => nomatch hw), rfl⟩
  | _ => cases h

/-- How many steps a check has left at most. -/
def left : Checking → Nat
  | .waiting => 3
  | .reading => 2
  | .asking _ => 1
  | .ended _ => 0

section Steps

variable (database : Option String) (s : Store) (l : SimulatedLedger) (x : Identifier)

/-- A check a step further. -/
def next : Checking → Checking
  | .waiting => .reading
  | .reading =>
    match Check.localSide database s x with
    | .error f => .ended (.ok (.failed x.text ("Database read failed: " ++ f.message)))
    | .ok none => .ended (.ok (.notInStore x.text))
    | .ok (some p) => .asking p
  | .asking p => .ended (
    match l.fetch x.text with
    | .ok view => (Check.compareWith x.text p view).report
    | .error (.escrow (.ledger (.unknownEscrow _))) => .ok (.notOnLedger x.text)
    | .error f => .ok (.failed x.text ("Ledger read failed: " ++ f.message)))
  | .ended o => .ended o

/-- A check that asks has read the record, and one that has ended came to what the check of its
escrow comes to alone. -/
def Sound : Checking → Prop
  | .asking p => Check.localSide database s x = .ok (some p)
  | .ended o => o = (Check.ofEscrow database s l x).report
  | _ => True

variable {database s l x} {c : Checking}

theorem Sound.next (h : c.Sound database s l x) : (c.next database s l x).Sound database s l x := by
  cases c with
  | waiting => trivial
  | reading =>
    unfold Checking.next
    cases hlocal : Check.localSide database s x with
    | error f => simp only [Sound, Check.ofEscrow, hlocal]
    | ok row =>
      cases row with
      | none => simp only [Sound, Check.ofEscrow, hlocal]
      | some p => exact hlocal
  | asking p =>
    have hlocal : Check.localSide database s x = .ok (some p) := h
    simp only [Checking.next, Sound, Check.ofEscrow, hlocal]
    cases l.fetch x.text with
    | ok view => rfl
    | error f =>
      -- Of all failures only one is told apart.
      cases f with
      | escrow g =>
        cases g with
        | ledger e => cases e <;> rfl
        | _ => rfl
      | _ => rfl
  | ended o => exact h

/-- Every step brings a check closer to its end. -/
theorem left_next (hc : c.outcome? = none) : (c.next database s l x).left < c.left := by
  cases c with
  | waiting => exact Nat.lt_succ_self 2
  | reading =>
    unfold next
    cases Check.localSide database s x with
    | error f => exact Nat.two_pos
    | ok row =>
      cases row with
      | none => exact Nat.two_pos
      | some p => exact Nat.one_lt_two
  | asking p => exact Nat.one_pos
  | ended o => cases hc

end Steps

end Checking

/-! ## Many checks -/

/-- Checks that are made at once, each with its escrow. -/
abbrev Batch := List (Identifier × Checking)

namespace Batch

/-- Nothing has been checked. -/
def begin (ids : List Identifier) : Batch := ids.map fun x => (x, .waiting)

/-- How many permits are in use. -/
def busy (b : Batch) : Nat := b.countP fun c => c.2.isBusy

/-- All checks have ended. -/
def Over (b : Batch) : Prop := ∀ c ∈ b, c.2.outcome? ≠ none

/-- What the checks came to, in their places. -/
def outcomes (b : Batch) : List (Except Failure Report) := b.filterMap fun c => c.2.outcome?

/-- The reports on escrows whose checks have ended. A check that was stopped is an error. -/
def reports (ids : List Identifier) (b : Batch) : List Report :=
  List.zipWith (fun x o => Check.settle x ⟨o, [], true⟩) ids b.outcomes

/-- How many steps are left at most. -/
def left (b : Batch) : Nat := (b.map fun c => c.2.left).sum

section Steps

variable (database : Option String) (s : Store) (l : SimulatedLedger) (permits : Nat)

/-- One of the checks goes on. One that has waited needs a permit for it. -/
inductive Step : Batch → Batch → Prop
  | go {before after : Batch} {x : Identifier} {c : Checking} (hc : c.outcome? = none)
      (hpermit : c = .waiting → Batch.busy (before ++ (x, c) :: after) < permits) :
      Step (before ++ (x, c) :: after) (before ++ (x, c.next database s l x) :: after)

/-- A number of steps, in any order. -/
inductive Run (b : Batch) : Nat → Batch → Prop
  | stay : Run b 0 b
  | step {n : Nat} {c d : Batch} : Run b n c → Step database s l permits c d → Run b (n + 1) d

/-- All checks are on the way to what they come to alone. -/
def Sound (b : Batch) : Prop := ∀ c ∈ b, c.2.Sound database s l c.1

variable {database s l permits} {b c : Batch} {ids : List Identifier} {n : Nat}

/-- While a check has not ended, some check can go on. -/
theorem exists_step (hp : 0 < permits) (h : ¬b.Over) : ∃ c, Step database s l permits b c := by
  have goes : ∀ y ∈ b, y.2.outcome? = none → (y.2 = .waiting → b.busy < permits) →
      ∃ c, Step database s l permits b c := by
    rintro ⟨x, c⟩ hy hc hpermit
    obtain ⟨before, after, rfl⟩ := List.append_of_mem hy
    exact ⟨_, .go hc hpermit⟩
  obtain ⟨y, hy, hc⟩ : ∃ y ∈ b, y.2.outcome? = none := by
    simpa only [Over, ne_eq, not_forall, not_not, exists_prop] using h
  -- A check that has a permit goes on; where none has one, they are all free.
  by_cases hbusy : ∃ z ∈ b, z.2.isBusy = true
  · obtain ⟨z, hz, hb⟩ := hbusy
    obtain ⟨hwaits, hends⟩ := Checking.of_isBusy hb
    exact goes z hz hends fun h => absurd h hwaits
  · refine goes y hy hc fun _ => ?_
    have hnone : b.busy = 0 :=
      List.countP_eq_zero.mpr fun z hz hb => hbusy ⟨z, hz, hb⟩
    rwa [hnone]

namespace Step

/-- The checks keep their places. -/
theorem places (h : Step database s l permits b c) : c.map (·.1) = b.map (·.1) := by
  cases h with
  | go => simp only [List.map_append, List.map_cons]

theorem sound (h : Step database s l permits b c) (hb : Sound database s l b) :
    Sound database s l c := by
  cases h with
  | @go before after x c =>
    intro y hy
    rcases List.mem_append.mp hy with hy | hy
    · exact hb y (List.mem_append_left _ hy)
    · rcases List.mem_cons.mp hy with rfl | hy
      · exact (hb (x, c) (List.mem_append_right _ List.mem_cons_self)).next
      · exact hb y (List.mem_append_right _ (List.mem_cons_of_mem _ hy))

theorem left_lt (h : Step database s l permits b c) : c.left < b.left := by
  cases h with
  | @go before after x c hc =>
    have hnext : (c.next database s l x).left < c.left := Checking.left_next hc
    simp only [left, List.map_append, List.map_cons, List.sum_append, List.sum_cons]
    omega

end Step

namespace Run

theorem places (h : Run database s l permits b n c) : c.map (·.1) = b.map (·.1) := by
  induction h with
  | stay => rfl
  | step _ hs ih => exact hs.places.trans ih

theorem sound (h : Run database s l permits b n c) (hb : Sound database s l b) :
    Sound database s l c := by
  induction h with
  | stay => exact hb
  | step _ hs ih => exact hs.sound ih

theorem left_le (h : Run database s l permits b n c) : n + c.left ≤ b.left := by
  induction h with
  | stay => exact Nat.le_of_eq (Nat.zero_add _)
  | step _ hs ih =>
    have := hs.left_lt
    omega

/-- There are three steps for each check at most. -/
theorem bounded (h : Run database s l permits (begin ids) n c) : n ≤ 3 * ids.length := by
  have hbegin : (begin ids).left = 3 * ids.length := by
    simp only [left, begin, List.map_map, Function.comp_def, Checking.left, List.map_const',
      List.sum_replicate_nat, Nat.mul_comm]
  have := h.left_le
  omega

/-- What the checks of a batch came to is what each of them comes to alone. -/
theorem outcomes_eq (h : Run database s l permits (begin ids) n c) (hover : c.Over) :
    c.outcomes = ids.map fun x => (Check.ofEscrow database s l x).report := by
  have hsound : Sound database s l c := h.sound fun y hy => by
    obtain ⟨x, -, rfl⟩ := List.mem_map.mp hy
    trivial
  have hends : ∀ y ∈ c, y.2.outcome? = some (Check.ofEscrow database s l y.1).report := by
    rintro ⟨x, d⟩ hy
    cases d with
    | ended o => exact congrArg some (hsound _ hy)
    | _ => exact absurd rfl (hover _ hy)
  have hids : c.map (·.1) = ids := by
    rw [h.places, begin, List.map_map]
    exact List.map_id _
  calc c.outcomes = c.filterMap fun y => some (Check.ofEscrow database s l y.1).report :=
        List.filterMap_congr hends
    _ = (c.map (·.1)).map fun x => (Check.ofEscrow database s l x).report := by
        rw [List.filterMap_eq_map', List.map_map]
        rfl
    _ = ids.map fun x => (Check.ofEscrow database s l x).report := by rw [hids]

/-- Once all have ended, the reports are those of the checks one by one. -/
theorem gathered (h : Run database s l permits (begin ids) n c) (hover : c.Over) :
    c.reports ids = (audit database s l ids).result.reports := by
  rw [reports, h.outcomes_eq hover, List.zipWith_map_right, List.zipWith_self, reports_audit]
  rfl

end Run

end Steps

end Batch

end Custody
