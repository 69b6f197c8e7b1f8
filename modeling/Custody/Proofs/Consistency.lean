import Custody.Api.Answer
import Custody.Proofs.Dated
import Custody.Proofs.Gathering

/-!
# What a consistency check tells

A check goes wrong in three places: the record cannot be read, the ledger cannot be read, or what it
answers cannot be compared. Each time the report says so, and so does it when one of the sides is
missing. Otherwise it has every difference of the two sides and nothing else. Reports do not mix:
each is the one that its escrow would get alone.

> `mem_diff_iff`: what is reported as a difference is one, and every difference is reported.
> `Check.reported`: each escrow gets the report that is due.
> `Reported.kinds`: a report is of one kind, and the tally counts it there.
> `consistency_check_exact`: all of it for any escrows, in any order of the steps.
-/

namespace Custody

/-! ## Differences -/

/-- The two sides of an escrow differ on a field, and that is what they have there. -/
inductive Projection.Differ (p q : Projection) : Mismatch → Prop
  | status (h : p.status ≠ q.status) :
      Differ p q ⟨"status", .json (.ofLoose p.status), .json (.ofLoose q.status)⟩
  | amount (h : Decimal.equals? p.amount q.amount = some false) :
      Differ p q ⟨"amount", .number p.amount, .number q.amount⟩
  | released (h : p.released ≠ q.released) :
      Differ p q ⟨"is_released", .json (.bool p.released), .json (.bool q.released)⟩
  | transaction (h : p.transaction.equals q.transaction = false) :
      Differ p q ⟨"release_transaction_hash", .json p.transaction, .json q.transaction⟩
  | deadline (h : p.deadline ≠ q.deadline) :
      Differ p q ⟨"expires_at", .moment p.deadline, .moment q.deadline⟩

/-- The fields that are compared, in their order. -/
def comparedFields : List String :=
  ["status", "amount", "is_released", "release_transaction_hash", "expires_at"]

section Differences

variable {p q : Projection} {ms : List Mismatch} {agrees : Bool} {field : String}
  {a b : FieldValue} {m : Mismatch}

theorem mem_mismatchUnless :
    m ∈ mismatchUnless agrees field a b ↔ agrees = false ∧ m = ⟨field, a, b⟩ := by
  cases agrees <;> simp [mismatchUnless]

theorem fields_mismatchUnless (agrees : Bool) (field : String) (a b : FieldValue) :
    ((mismatchUnless agrees field a b).map (·.field)).Sublist [field] := by
  cases agrees with
  | true => exact List.nil_sublist _
  | false => exact List.Sublist.refl _

theorem diff_eq_ok (h : diff p q = .ok ms) : ∃ same, Decimal.equals? p.amount q.amount = some same := by
  unfold diff at h
  split at h
  next => cases h
  next same hs => exact ⟨same, hs⟩

/-- Two sides cannot be compared when their amounts cannot. -/
theorem diff_eq_error {f : Failure} (h : diff p q = .error f) :
    Decimal.equals? p.amount q.amount = none ∧ f = .decimal .undefinedValue := by
  unfold diff at h
  split at h
  next hs => exact ⟨hs, (Except.error.inj h).symm⟩
  next => cases h

/-- What is reported as a difference is one, and every difference is reported. -/
theorem mem_diff_iff (h : diff p q = .ok ms) : m ∈ ms ↔ p.Differ q m := by
  obtain ⟨same, hs⟩ := diff_eq_ok h
  simp only [diff, hs, Except.ok.injEq] at h
  subst h
  simp only [List.mem_append, mem_mismatchUnless, beq_eq_false_iff_ne]
  constructor
  · rintro ((((⟨hd, rfl⟩ | ⟨hd, rfl⟩) | ⟨hd, rfl⟩) | ⟨hd, rfl⟩) | ⟨hd, rfl⟩)
    · exact .status hd
    · exact .amount (hd ▸ hs)
    · exact .released hd
    · exact .transaction hd
    · exact .deadline hd
  · intro hd
    cases hd with
    | status hd => exact .inl (.inl (.inl (.inl ⟨hd, rfl⟩)))
    | amount hd => exact .inl (.inl (.inl (.inr ⟨Option.some.inj (hs.symm.trans hd), rfl⟩)))
    | released hd => exact .inl (.inl (.inr ⟨hd, rfl⟩))
    | transaction hd => exact .inl (.inr ⟨hd, rfl⟩)
    | deadline hd => exact .inr ⟨hd, rfl⟩

/-- A field is reported once at most, and in its turn. -/
theorem fields_diff (h : diff p q = .ok ms) : (ms.map (·.field)).Sublist comparedFields := by
  obtain ⟨same, hs⟩ := diff_eq_ok h
  simp only [diff, hs, Except.ok.injEq] at h
  subst h
  simp only [List.map_append]
  exact ((((fields_mismatchUnless ..).append (fields_mismatchUnless ..)).append
    (fields_mismatchUnless ..)).append (fields_mismatchUnless ..)).append (fields_mismatchUnless ..)

end Differences

/-! ## Reports -/

/-- A record in the common form. -/
def Escrow.projection (e : Escrow) : Projection :=
  { status := .sound (word e.status), amount := e.amount, released := e.released
    transaction := Json.ofText? e.releaseTransaction
    deadline := e.deadline.map fun m => Moment.utc (Moment.floorSecond m.wall) }

/-- The report that an escrow is due, by what the store has of it and what the ledger answers. -/
inductive Reported (database : Option String) (s : Store) (l : SimulatedLedger) (x : Identifier) :
    Report → Prop
  | storeUnread {reason : String} (hd : database = some reason) :
      Reported database s l x (.failed x.text ("Database read failed: " ++ reason))
  | notInStore (hd : database = none) (he : s.escrow? x = none) :
      Reported database s l x (.notInStore x.text)
  | notOnLedger {e : Escrow} {y : String} (hd : database = none) (he : s.escrow? x = some e)
      (hl : l.fetch x.text = .error (.escrow (.ledger (.unknownEscrow y)))) :
      Reported database s l x (.notOnLedger x.text)
  | ledgerUnread {e : Escrow} {f : Failure} (hd : database = none) (he : s.escrow? x = some e)
      (hl : l.fetch x.text = .error f)
      (hf : ∀ y, f ≠ .escrow (.ledger (.unknownEscrow y))) :
      Reported database s l x (.failed x.text ("Ledger read failed: " ++ f.message))
  | unprojected {e : Escrow} {view : RawState} {f : Failure} (hd : database = none)
      (he : s.escrow? x = some e) (hl : l.fetch x.text = .ok view) (hp : view.project = .error f) :
      Reported database s l x (.failed x.text f.message)
  | incomparable {e : Escrow} {view : RawState} {q : Projection} (hd : database = none)
      (he : s.escrow? x = some e) (hl : l.fetch x.text = .ok view) (hp : view.project = .ok q)
      (ha : Decimal.equals? e.amount q.amount = none) :
      Reported database s l x (.failed x.text (Failure.decimal .undefinedValue).message)
  | agreeing {e : Escrow} {view : RawState} {q : Projection} (hd : database = none)
      (he : s.escrow? x = some e) (hl : l.fetch x.text = .ok view) (hp : view.project = .ok q)
      (ha : Decimal.equals? e.amount q.amount ≠ none) (hnone : ∀ m, ¬e.projection.Differ q m) :
      Reported database s l x (.agreeing x.text)
  | differing {e : Escrow} {view : RawState} {q : Projection} {ms : List Mismatch}
      (hd : database = none) (he : s.escrow? x = some e) (hl : l.fetch x.text = .ok view)
      (hp : view.project = .ok q) (hsome : ms ≠ []) (hms : ∀ m, m ∈ ms ↔ e.projection.Differ q m)
      (horder : (ms.map (·.field)).Sublist comparedFields) :
      Reported database s l x (.differing x.text ms)

section Reports

variable {database : Option String} {s : Store} {l : SimulatedLedger} {x : Identifier} {e : Escrow}

/-- A record can always be brought to the common form. -/
theorem Store.Timely.project (hs : s.Timely) (he : s.escrow? x = some e) :
    e.state.project = .ok e.projection := by
  unfold RawState.project
  simp only [Escrow.state, RawAmount.toDecimal, hs.normalize he]
  rfl

/-- A view that is there is compared with the record, if that can be done. -/
theorem Check.reported_compareWith {view : RawState} (hd : database = none)
    (he : s.escrow? x = some e) (hl : l.fetch x.text = .ok view) :
    Reported database s l x ((compareWith x.text e.projection view).settle x) := by
  unfold compareWith
  cases hp : view.project with
  | error f => exact .unprojected hd he hl hp
  | ok q =>
    simp only [bind, Except.bind]
    cases hdiff : diff e.projection q with
    | error f =>
      obtain ⟨ha, rfl⟩ := diff_eq_error hdiff
      exact .incomparable hd he hl hp ha
    | ok ms =>
      obtain ⟨same, ha⟩ := diff_eq_ok hdiff
      cases ms with
      | nil =>
        refine .agreeing hd he hl hp (fun hn => ?_) fun m hm => ?_
        · exact nomatch hn.symm.trans ha
        · exact nomatch (mem_diff_iff hdiff).mpr hm
      | cons m ms =>
        exact .differing hd he hl hp (List.cons_ne_nil m ms) (fun _ => mem_diff_iff hdiff)
          (fields_diff hdiff)

/-- Each escrow gets the report that it is due. -/
theorem Check.reported (hs : s.Timely) (database : Option String) (l : SimulatedLedger)
    (x : Identifier) :
    Reported database s l x ((Check.ofEscrow database s l x).settle x) := by
  unfold Check.ofEscrow
  cases database with
  | some reason => exact .storeUnread rfl
  | none =>
    cases he : s.escrow? x with
    | none =>
      simp only [localSide, he]
      exact .notInStore rfl he
    | some e =>
      -- The record can be compared, so it is up to the ledger now.
      simp only [localSide, he, hs.project he, Except.map]
      split
      next view hl => exact reported_compareWith rfl he hl
      next y hl => exact .notOnLedger rfl he hl
      next f hf hl => exact .ledgerUnread rfl he hl hf

/-- A report is of one kind, and what it holds shows which. -/
theorem Reported.kinds {r : Report} (h : Reported database s l x r) :
    (r.trouble? = some .errored ↔ r.error.isSome = true) ∧
      (r.trouble? = some .missingInStore ↔ r.missingInStore = true) ∧
      (r.trouble? = some .missingOnLedger ↔ r.missingOnLedger = true) ∧
      (r.trouble? = some .inconsistent ↔ r.mismatches ≠ []) ∧
      (r.trouble? = none ↔ r.consistent = true) := by
  cases h with
  | differing hd he hl hp hsome => simp [Report.trouble?, Report.differing, hsome]
  | notInStore => simp [Report.trouble?, Report.notInStore]
  | notOnLedger => simp [Report.trouble?, Report.notOnLedger]
  | agreeing => simp [Report.trouble?, Report.agreeing]
  | _ => simp [Report.trouble?, Report.failed]

/-- A report that tells of nothing is of an escrow whose sides agree, and only that one. -/
theorem Reported.consistent_iff {r : Report} (h : Reported database s l x r) :
    r.consistent = true ↔
      r.mismatches = [] ∧ r.missingInStore = false ∧ r.missingOnLedger = false ∧ r.error = none := by
  cases h with
  | differing hd he hl hp hsome => simp [Report.differing, hsome]
  | notInStore => simp [Report.notInStore]
  | notOnLedger => simp [Report.notOnLedger]
  | agreeing => simp [Report.agreeing]
  | _ => simp [Report.failed]

/-- Every report is about its escrow. -/
theorem Reported.escrow {r : Report} (h : Reported database s l x r) : r.escrow = x.text := by
  cases h <;> rfl

end Reports

/-! ## Tallies -/

/-- What a check of several escrows tells is exact. -/
structure CheckResult.Exact (database : Option String) (s : Store) (l : SimulatedLedger)
    (ids : List Identifier) (c : CheckResult) : Prop where
  /-- The report in a place is the one that the escrow in that place is due, and gets alone. -/
  aligned : ∀ (i : Nat) (x : Identifier), ids[i]? = some x → ∃ r, c.reports[i]? = some r ∧
    r.escrow = x.text ∧ Reported database s l x r ∧
    (audit database s l [x]).result.reports = [r]
  length : c.reports.length = ids.length
  checked : c.summary.checked = ids.length
  inconsistent : c.summary.inconsistent = c.reports.countP fun r => r.mismatches ≠ []
  missingInStore : c.summary.missingInStore = c.reports.countP fun r => r.missingInStore
  missingOnLedger : c.summary.missingOnLedger = c.reports.countP fun r => r.missingOnLedger
  errored : c.summary.errored = c.reports.countP fun r => r.error.isSome
  /-- The consistent reports are those of none of these kinds. -/
  consistent : ∀ r ∈ c.reports, r.consistent = true ↔
    r.mismatches = [] ∧ r.missingInStore = false ∧ r.missingOnLedger = false ∧ r.error = none
  /-- No report is counted twice. -/
  rest : c.summary.inconsistent + c.summary.missingInStore + c.summary.missingOnLedger +
    c.summary.errored + c.reports.countP (fun r => r.consistent) = c.summary.checked

section Tallies

variable {s : Store}

/-- The tally of a kind counts the reports that show it. -/
theorem length_filter_trouble {rs : List Report} {t : Option Trouble} {shows : Report → Bool}
    (h : ∀ r ∈ rs, r.trouble? = t ↔ shows r = true) :
    (rs.filter fun r => r.trouble? = t).length = rs.countP shows := by
  rw [List.countP_eq_length_filter]
  congr 1
  exact List.filter_congr fun r hr => by
    rw [Bool.eq_iff_iff, decide_eq_true_iff]
    exact h r hr

/-- A check of several escrows is exact. -/
theorem exact_audit (hs : s.Timely) (database : Option String) (l : SimulatedLedger)
    (ids : List Identifier) : (audit database s l ids).result.Exact database s l ids := by
  have hreports := reports_audit database s l ids
  have hlength : (audit database s l ids).result.reports.length = ids.length :=
    length_reports database s l ids
  have hdue : ∀ r ∈ (audit database s l ids).result.reports, ∃ x, Reported database s l x r := by
    rw [hreports]
    intro r hr
    obtain ⟨x, -, rfl⟩ := List.mem_map.mp hr
    exact ⟨x, Check.reported hs database l x⟩
  have hkinds := fun r hr => (hdue r hr).elim fun _ h => h.kinds
  have hsummary : (audit database s l ids).result.summary =
    Tally.ofReports (audit database s l ids).result.reports := rfl
  refine ⟨fun i x hx => ?_, hlength, hlength, ?_, ?_, ?_, ?_, ?_, ?_⟩
  · have hr := Check.reported hs database l x
    refine ⟨(Check.ofEscrow database s l x).settle x, ?_, hr.escrow, hr, reports_audit ..⟩
    rw [hreports, List.getElem?_map, hx, Option.map_some]
  · exact length_filter_trouble fun r hr => by simpa using (hkinds r hr).2.2.2.1
  · exact length_filter_trouble fun r hr => (hkinds r hr).2.1
  · exact length_filter_trouble fun r hr => (hkinds r hr).2.2.1
  · exact length_filter_trouble fun r hr => (hkinds r hr).1
  · intro r hr
    obtain ⟨x, h⟩ := hdue r hr
    exact h.consistent_iff
  · rw [← length_filter_trouble fun r hr => (hkinds r hr).2.2.2.2, hsummary]
    exact mem_tally _

end Tallies

/-- A check of any escrows, repeated ones among them, tells exactly how each of them stands, whatever
the ledger answers about it. The checks are made at the same time: in whatever order their steps are
taken, some check can go on until all have ended, which is after three steps for each at most, and
the reports are those. A request for the check leaves the service with its ledger as it was, and
others get to see nothing of it. -/
theorem consistency_check_exact {v : Service} (hv : Dated v) (l : SimulatedLedger)
    (ids : List Identifier) :
    let u : Service := { v with ledger := l }
    (u.check ids).result.Exact u.database u.store u.ledger ids ∧
    (∀ n b, Batch.Run u.database u.store u.ledger u.settings.checkPermits (Batch.begin ids) n b →
      n ≤ 3 * ids.length ∧
      (¬b.Over → ∃ c, Batch.Step u.database u.store u.ledger u.settings.checkPermits b c) ∧
      (b.Over → b.reports ids = (u.check ids).result.reports)) ∧
    ∀ host by',
      let reply := Api.Call.answer ⟨host, u⟩ by' (.check ids)
      reply.service = u ∧ reply.effects.settled = [] ∧ reply.effects.sent = [] ∧
        reply.effects.queued = [] := by
  intro u
  refine ⟨exact_audit hv.timely u.database l ids, fun n b hb => ?_, fun host by' => ?_⟩
  · exact ⟨hb.bounded, Batch.exists_step u.settings.checkPermits_pos, hb.gathered⟩
  · exact ⟨rfl, rfl, rfl, rfl⟩

/-- Four sales, the first of them funded. -/
def fourSalesService : Service :=
  soldService.run (List.replicate 3 (.operation ⟨"buyer", none⟩ (.create sale)))

/-- A ledger that knows the first sale as it is, has another amount for the second, cannot be read on
the fourth, and knows of a fifth. -/
def mixedLedger : SimulatedLedger :=
  let view (status : String) (amount : Nat) : RawState :=
    ⟨.text status, .number (.finite false amount 0), .bool false, .null, none⟩
  ((((SimulatedLedger.empty.record (Identifier.escrow 1).text (view "ACTIVE" 100)).record
    (Identifier.escrow 2).text (view "PENDING" 99)).record
    (Identifier.escrow 5).text (view "PENDING" 100)).refuse
    (Identifier.escrow 4).text (.escrow (.ledger (.fetch "connection reset"))))

theorem consistency_check_exact_mixedLedger :
    let u : Service := { fourSalesService with ledger := mixedLedger }
    let ids := [1, 5, 2, 3, 4, 1].map Identifier.escrow
    (u.check ids).result.Exact u.database u.store u.ledger ids ∧
      (u.check ids).result.summary = ⟨6, 1, 1, 1, 1⟩ := by
  intro u ids
  have hdated : Dated fourSalesService := by
    refine soldService_dated.run fun a ha => ?_
    rw [List.eq_of_mem_replicate ha]
    exact fun m hm => nomatch hm
  exact ⟨(consistency_check_exact hdated mixedLedger ids).1, by decide +kernel⟩

end Custody
