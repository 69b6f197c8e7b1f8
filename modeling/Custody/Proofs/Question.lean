import Custody.Proofs.Run

/-!
# One question at most

What an operation asks the ledger is settled before it hears anything, and afterwards it goes by the
answer to that question alone. So there is no second question, whatever the first answer was.

> `OneQuestion`: what holds of work with one question at most.
> `Operation.oneQuestion`: it holds of every operation, whatever surrounds it.
-/

namespace Custody

/-- Work with one question to the ledger, or none: the question is the same whatever the ledger would
answer, and where the answers to it are the same, so is the outcome. -/
structure OneQuestion {α : Type} (work : (SettleRequest → LedgerAnswer) → Outcome α)
    (question : Option SettleRequest) : Prop where
  asked : ∀ ask, (work ask).asked = question
  heard : ∀ ask ask', (∀ q ∈ question, ask q = ask' q) → work ask = work ask'

namespace OneQuestion

variable {α β : Type} {work : (SettleRequest → LedgerAnswer) → Outcome α}
  {question : Option SettleRequest}

/-- Work without a question. -/
theorem silent (hasked : ∀ ask, (work ask).asked = none) (hsame : ∀ ask ask', work ask = work ask') :
    OneQuestion work none :=
  ⟨hasked, fun ask ask' _ => hsame ask ask'⟩

theorem mapResult (h : OneQuestion work question) (f : α → β) :
    OneQuestion (fun ask => (work ask).mapResult f) question :=
  ⟨h.asked, fun ask ask' hsame => by rw [h.heard ask ask' hsame]⟩

end OneQuestion

/-- A plan asks one question, if it pays out. -/
theorem Plan.conclude_question (p : Plan) :
    ∃ question : Option SettleRequest, (∀ ask, (p.conclude ask).asked = question) ∧
      ∀ ask ask', (∀ q ∈ question, ask q = ask' q) → p.conclude ask = p.conclude ask' := by
  obtain ⟨w, next⟩ := p
  cases next with
  | finish => exact ⟨none, fun _ => rfl, fun _ _ _ => rfl⟩
  | refuse f => exact ⟨none, fun _ => rfl, fun _ _ _ => rfl⟩
  | payOut r paid =>
    refine ⟨some r, fun ask => ?_, fun ask ask' hsame => ?_⟩
    · simp only [conclude]
      split <;> rfl
    · simp only [conclude, hsame r rfl]

section Work

variable (env : Surroundings) (by' : Caller) (x : Identifier)
  (plan : Escrow → List Condition → Plan) (s : Store) (c : Counters)

/-- A transaction asks the question of its plan. -/
theorem carryOut_oneQuestion :
    ∃ question, OneQuestion (fun ask => carryOut { env with ask := ask } x plan s c) question := by
  cases he : s.escrow? x with
  | none =>
    refine ⟨none, fun ask => ?_, fun ask ask' _ => ?_⟩
    · rw [carryOut_of_none he]
      rfl
    · simp only [carryOut_of_none he]
  | some e =>
    obtain ⟨question, hasked, hheard⟩ := (plan e (s.conditionsOf x)).conclude_question
    refine ⟨question, fun ask => ?_, fun ask ask' hsame => ?_⟩
    · rw [asked_carryOut he]
      exact hasked ask
    · simp only [carryOut, he, hheard ask ask' hsame]

theorem underLock_oneQuestion :
    ∃ question, OneQuestion (fun ask =>
      underLock { env with ask := ask } x (carryOut { env with ask := ask } x plan) s c)
      question := by
  by_cases hl : env.lease.any (fun l => !l.acquired) = true
  · refine ⟨none, .silent (fun ask => ?_) fun ask ask' => ?_⟩ <;>
      simp only [underLock, hl, if_true, Outcome.refused]
  rcases Option.eq_none_or_eq_some env.database with hd | ⟨f, hd⟩
  · obtain ⟨question, h⟩ := carryOut_oneQuestion env x plan s c
    simp only [hd] at h
    refine ⟨question, fun ask => ?_, fun ask ask' hsame => ?_⟩
    · simpa only [underLock, hl, hd, Bool.false_eq_true, if_false] using h.asked ask
    · simp only [underLock, hl, hd, Bool.false_eq_true, if_false, h.heard ask ask' hsame]
      rfl
  · refine ⟨none, .silent (fun ask => ?_) fun ask ask' => ?_⟩
    · simp only [underLock, hl, hd, Bool.false_eq_true, if_false, Outcome.refused]
    · simp only [underLock, hl, hd, Bool.false_eq_true, if_false]
      rfl

/-- An operation asks one question at most, whatever surrounds it. -/
theorem Operation.oneQuestion (op : Operation) (seen : Store) :
    ∃ question,
      OneQuestion (fun ask => op.run { env with ask := ask } by' seen s c) question := by
  cases op with
  | create n =>
    exact ⟨none, .silent (fun ask => createEscrow_asked { env with ask := ask } by' n s c)
      fun _ _ => rfl⟩
  | task y t =>
    obtain ⟨question, h⟩ := underLock_oneQuestion env y
      (fun e cs => t.plan env.now by' e cs) s c
    exact ⟨question, h.mapResult _⟩
  | confirm k =>
    simp only [run, confirmCondition]
    -- The condition is looked up before anything is asked, so the question does not depend on answers.
    rcases Option.eq_none_or_eq_some env.database with hd | ⟨f, hd⟩
    · simp only [hd]
      cases seen.condition? k with
      | none => exact ⟨none, .silent (fun _ => rfl) fun _ _ => rfl⟩
      | some q =>
        dsimp only
        split
        next => exact ⟨none, .silent (fun _ => rfl) fun _ _ => rfl⟩
        next =>
          obtain ⟨question, h⟩ := underLock_oneQuestion env q.escrow (planConfirmation k by') s c
          simp only [hd] at h
          refine ⟨question, h.asked, fun ask ask' hsame => ?_⟩
          rw [h.heard ask ask' hsame]
    · simp only [hd]
      exact ⟨none, .silent (fun _ => rfl) fun _ _ => rfl⟩

end Work

end Custody
