import Custody.Proofs.Gathering
import Custody.Proofs.Independence

/-!
# Both sides in step

A settlement is written down twice. The ledger brings its view of the escrow to the settled state, and
the service completes its record, each in a form of its own; a check compares the two in a third one.
There they are the same state, whatever stood in the view before. What is left to differ are the
terms, the amount and the deadline, and these no settlement touches.

> `project_settledView`: in the common form the settled state is the same on both sides.
> `diff_settled`: so settled sides differ on the terms only, and there as they did before.
> `settling_in_step`: an operation that settles an escrow leaves just these to be reported.
-/

namespace Custody

/-! ## Settled sides -/

/-- A side of a comparison whose escrow is settled. -/
def Projection.settled (transaction : String) (p : Projection) : Projection :=
  { p with status := .sound (word Status.completed), released := true, transaction := .text transaction }

/-- A side that is settled comes to the common form of a settled side. -/
theorem project_settledView (t : String) (view : RawState) :
    (SimulatedLedger.settledView t view).project = view.project.map (Projection.settled t) := by
  unfold RawState.project
  simp only [SimulatedLedger.settledView]
  cases view.amount.toDecimal with
  | error f => rfl
  | ok amount => cases normalizeMoment view.deadline <;> rfl

/-- A record that is completed is a side that is settled. -/
theorem Escrow.state_completion (e : Escrow) (now : Moment) (t : String) :
    ((Patch.completion t).applyAt now e).loaded.state =
      SimulatedLedger.settledView t e.loaded.state := rfl

/-- The differences on the amount and the deadline, which are terms. -/
def onTerms (ms : List Mismatch) : List Mismatch :=
  ms.filter fun m => m.field = "amount" ∨ m.field = "expires_at"

theorem onTerms_append (ms ns : List Mismatch) : onTerms (ms ++ ns) = onTerms ms ++ onTerms ns :=
  List.filter_append ..

theorem onTerms_of_term {field : String} (h : field = "amount" ∨ field = "expires_at")
    (agrees : Bool) (a b : FieldValue) :
    onTerms (mismatchUnless agrees field a b) = mismatchUnless agrees field a b := by
  unfold mismatchUnless
  cases agrees with
  | true => rfl
  | false =>
    show onTerms [⟨field, a, b⟩] = [⟨field, a, b⟩]
    exact List.filter_cons_of_pos (decide_eq_true h)

theorem onTerms_of_not_term {field : String} (h : ¬(field = "amount" ∨ field = "expires_at"))
    (agrees : Bool) (a b : FieldValue) : onTerms (mismatchUnless agrees field a b) = [] := by
  unfold mismatchUnless
  cases agrees with
  | true => rfl
  | false =>
    show onTerms [⟨field, a, b⟩] = []
    exact List.filter_cons_of_neg (by simpa using h)

/-- Sides that are settled in one transaction differ on the terms, and on nothing else. -/
theorem diff_settled (t : String) (p q : Projection) :
    diff (p.settled t) (q.settled t) = (diff p q).map onTerms := by
  unfold diff
  simp only [Projection.settled]
  cases Decimal.equals? p.amount q.amount with
  | none => rfl
  | some same =>
    have htransaction : (Json.text t).equals (.text t) = true := (Json.same_text_iff t t).mpr rfl
    simp only [Except.map, onTerms_append]
    rw [onTerms_of_not_term (by decide), onTerms_of_term (by decide),
      onTerms_of_not_term (by decide), onTerms_of_not_term (by decide), onTerms_of_term (by decide),
      htransaction, beq_self_eq_true, beq_self_eq_true]
    rfl

/-! ## Reports -/

/-- What becomes of a report when its escrow is settled: what it told about the terms is told still,
and nothing else is. -/
structure Report.Settles (r r' : Report) : Prop where
  escrow : r'.escrow = r.escrow
  mismatches : r'.mismatches = onTerms r.mismatches
  missingInStore : r'.missingInStore = r.missingInStore
  missingOnLedger : r'.missingOnLedger = r.missingOnLedger
  error : r'.error = r.error
  consistent : r.consistent = true → r'.consistent = true

/-- A report without differences stays as it is. -/
theorem Report.settles_self {r : Report} (h : r.mismatches = []) : r.Settles r :=
  ⟨rfl, by rw [h]; rfl, rfl, rfl, rfl, id⟩

section Checks

variable {l m : SimulatedLedger} {s s' : Store} {x : Identifier} {t : String}

theorem Check.settles_compareWith (p : Projection) (view : RawState) :
    ((compareWith x.text p view).settle x).Settles
      ((compareWith x.text (p.settled t) (SimulatedLedger.settledView t view)).settle x) := by
  unfold compareWith
  rw [project_settledView]
  cases view.project with
  | error f => exact Report.settles_self rfl
  | ok q =>
    simp only [Except.map, bind, Except.bind]
    rw [diff_settled]
    cases diff p q with
    | error f => exact Report.settles_self rfl
    | ok ms =>
      simp only [Except.map]
      cases ms with
      | nil => exact Report.settles_self rfl
      | cons d ms =>
        cases hms : onTerms (d :: ms) with
        | nil => exact ⟨rfl, hms.symm, rfl, rfl, rfl, (fun h => nomatch h)⟩
        | cons d' ms' => exact ⟨rfl, hms.symm, rfl, rfl, rfl, (fun h => nomatch h)⟩

/-- The ledger shows the escrow that it has settled as settled. -/
theorem SimulatedLedger.fetch_settle (ht : l.answer = .ok t) (z beneficiary : String) :
    (l.settle z beneficiary).fetch z = (l.fetch z).map (settledView t) := by
  have hunreadable : (l.settle z beneficiary).unreadable = l.unreadable := by
    simp only [settle, ht]
  unfold fetch
  rw [hunreadable, view?_settle ht, if_pos rfl]
  split
  next => rfl
  next => cases l.view? z <;> rfl

/-- A check of an escrow that both sides have settled. -/
theorem Check.settles_ofEscrow (database : Option String) {e e' : Escrow}
    (he : s.escrow? x = some e) (he' : s'.escrow? x = some e')
    (hstate : e'.state = SimulatedLedger.settledView t e.state)
    (hfetch : m.fetch x.text = (l.fetch x.text).map (SimulatedLedger.settledView t)) :
    ((ofEscrow database s l x).settle x).Settles ((ofEscrow database s' m x).settle x) := by
  unfold ofEscrow
  cases database with
  | some reason => exact Report.settles_self rfl
  | none =>
    simp only [localSide, he, he', hstate, project_settledView, hfetch]
    cases e.state.project with
    | error f => exact Report.settles_self rfl
    | ok p =>
      simp only [Except.map]
      cases l.fetch x.text with
      | ok view => exact settles_compareWith p view
      | error f =>
        -- The view could not be read, and cannot be read now for the same reason.
        dsimp only
        split
        next h => cases h
        next => exact Report.settles_self rfl
        next => exact Report.settles_self rfl

end Checks

/-! ## Operations -/

/-- What an operation leaves that settles an escrow: the record is completed in the transaction in which
the ledger has settled. -/
theorem Effect.settling {v u : Service} {by' : Caller} (h : Effect v by' u)
    {x : Identifier} {q : Settlement}
    (hq : q ∈ u.ledger.settlements.drop v.ledger.settlements.length) (hqx : q.escrow = x.text) :
    ∃ e b t, v.store.stored? x = some e ∧ v.ledger.answer = .ok t ∧
      u.store.stored? x = some ((Patch.completion t).applyAt v.now e) ∧
      u.ledger = v.ledger.settle x.text b := by
  have unsettled : q ∉ v.ledger.settlements.drop v.ledger.settlements.length := by
    rw [List.drop_length]
    exact List.not_mem_nil
  cases h with
  | nothing => exact absurd hq unsettled
  | creation => exact absurd hq unsettled
  | @deed e w paid he hd ha =>
    cases paid with
    | none => exact absurd hq unsettled
    | some p =>
      obtain ⟨⟨y, b⟩, t⟩ := p
      obtain ⟨hid, -, -, hpatch⟩ := hd.paid_spec
      have hid : y = e.id := hid
      subst hid
      have hanswer : v.ledger.answer = .ok t := ha _ rfl
      -- The ledger has settled the escrow of the deed, and no other.
      have hsettled : q = ⟨e.id.text, b, t⟩ := by
        have hq : q ∈ (v.ledger.settle e.id.text b).settlements.drop
          v.ledger.settlements.length := hq
        simpa [SimulatedLedger.settle, hanswer] using hq
      have hx : e.id = x := Identifier.text_injective (by rw [← hqx, hsettled])
      subst hx
      refine ⟨e, b, t, he, hanswer, ?_, rfl⟩
      rw [Store.stored?_changed he, Writes.view, hpatch]

/-- Whatever view the ledger has of an escrow, in step with the record or not: when an operation
settles the escrow, both sides have it completed and released in the same transaction afterwards.
A check reports exactly what it reported before about the amount and the deadline, and nothing else
that differs; in particular, an escrow that was consistent still is. -/
theorem settling_in_step {v : Service} (hv : Reachable v) {e : Escrow} (he : e ∈ v.store.escrows)
    {view : RawState} (hview : v.ledger.view? e.id.text = some view) (by' : Caller)
    (op : Operation) (hq : ∃ q ∈ (v.perform by' op).2.2.settled, q.escrow = e.id.text) :
    let w := (v.perform by' op).2.1
    (∃ r r', (v.check [e.id]).result.reports = [r] ∧ (w.check [e.id]).result.reports = [r'] ∧
      r'.mismatches =
        r.mismatches.filter (fun m => m.field = "amount" ∨ m.field = "expires_at") ∧
      r'.error = r.error ∧ r'.missingInStore = r.missingInStore ∧
      r'.missingOnLedger = r.missingOnLedger ∧ (r.consistent = true → r'.consistent = true)) ∧
    ∃ e' ∈ w.store.escrows, ∃ view', e'.id = e.id ∧ w.ledger.view? e.id.text = some view' ∧
      (e'.status = .completed ∧ view'.status = .text (word Status.completed)) ∧
      (e'.released = true ∧ view'.released = .bool true) ∧
      (∃ t, e'.releaseTransaction = some t ∧ view'.transaction = .text t) ∧
      (e'.amount = e.amount ∧ view'.amount = view.amount) ∧
      e'.deadline = e.deadline ∧ view'.deadline = view.deadline := by
  intro w
  have hk := hv.kept
  obtain ⟨q, hq, hqx⟩ := hq
  obtain ⟨d, b, t, hstored, hanswer, hstored', hledger⟩ :=
    (Service.perform_effect hk.sound by' op).settling hq hqx
  have hstored_e := (Store.stored?_eq_some_iff hk.distinct).mpr he
  obtain rfl : e = d := Option.some.inj (hstored_e.symm.trans hstored)
  have hdatabase : w.database = v.database := rfl
  have hstored' : w.store.stored? e.id = some ((Patch.completion t).applyAt v.now e) := hstored'
  have hledger : w.ledger = v.ledger.settle e.id.text b := hledger
  clear_value w
  constructor
  · have hsettles : ((Check.ofEscrow v.database v.store v.ledger e.id).settle e.id).Settles
        ((Check.ofEscrow v.database w.store w.ledger e.id).settle e.id) :=
      Check.settles_ofEscrow v.database (Store.escrow?_of_stored? hstored)
        (Store.escrow?_of_stored? hstored') (Escrow.state_completion e v.now t)
        (by rw [hledger]; exact SimulatedLedger.fetch_settle hanswer ..)
    refine ⟨_, _, reports_audit .., reports_audit .., ?_⟩
    rw [hdatabase]
    exact ⟨hsettles.mismatches, hsettles.error, hsettles.missingInStore, hsettles.missingOnLedger,
      hsettles.consistent⟩
  · refine ⟨_, List.mem_of_find?_eq_some hstored', SimulatedLedger.settledView t view, rfl, ?_,
      ⟨rfl, rfl⟩, ⟨rfl, rfl⟩, ⟨t, rfl, rfl⟩, ⟨rfl, rfl⟩, rfl, rfl⟩
    rw [hledger, SimulatedLedger.view?_settle hanswer, if_pos rfl, hview]
    rfl

/-- The sale with one condition left open, of which the ledger knows another amount and that it is not
funded yet. -/
def misjudgedService : Service :=
  soldService.run
    [.operation ⟨"seller", none⟩ (.confirm (Identifier.condition 1)),
      .ledgerView (Identifier.escrow 1).text
        ⟨.text "PENDING", .number (.finite false 99 0), .bool false, .null, none⟩]

/-- The last confirmation brings the ledger's view in step, but for the amount. -/
theorem settling_in_step_misjudgedService :
    let op := Operation.confirm (Identifier.condition 2)
    let w := (misjudgedService.perform ⟨"buyer", none⟩ op).2.1
    ∃ e ∈ misjudgedService.store.escrows, ∃ r r',
      (misjudgedService.check [e.id]).result.reports = [r] ∧
      r.mismatches.map (·.field) = ["status", "amount"] ∧
      (w.check [e.id]).result.reports = [r'] ∧ r'.mismatches.map (·.field) = ["amount"] := by
  intro op w
  have hreachable : Reachable misjudgedService := soldService_reachable.run _
  obtain ⟨e, he, hview, hq, hbefore⟩ : ∃ e ∈ misjudgedService.store.escrows,
      (misjudgedService.ledger.view? e.id.text).isSome = true ∧
      (∃ q ∈ (misjudgedService.perform ⟨"buyer", none⟩ op).2.2.settled, q.escrow = e.id.text) ∧
      ((misjudgedService.check [e.id]).result.reports.map fun r => r.mismatches.map (·.field)) =
        [["status", "amount"]] := by
    decide +kernel
  obtain ⟨view, hview⟩ := Option.isSome_iff_exists.mp hview
  obtain ⟨⟨r, r', hr, hr', hmismatches, -⟩, -⟩ :=
    settling_in_step hreachable he hview ⟨"buyer", none⟩ op hq
  rw [hr] at hbefore
  have hfields : r.mismatches.map (·.field) = ["status", "amount"] :=
    List.head_eq_of_cons_eq hbefore
  refine ⟨e, he, r, r', hr, hfields, hr', ?_⟩
  calc r'.mismatches.map (·.field)
      = (r.mismatches.map (·.field)).filter (fun f => f = "amount" ∨ f = "expires_at") := by
        rw [hmismatches, List.filter_map]
        rfl
    _ = ["amount"] := by
        rw [hfields]
        decide

end Custody
