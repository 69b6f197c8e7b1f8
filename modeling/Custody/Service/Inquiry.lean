import Custody.Store.Listing

/-!
# Inquiries

Reading what the service knows. An escrow shows itself to its parties only, where a user asks; an
inquiry without a user is one of the service's own.

> `readEscrow_eq_ok_iff`: an escrow is shown exactly to its parties.
-/

namespace Custody

/-- The answer of a store that may be out of order. -/
def reading {α : Type} (database : Option String) (answer : Except Failure α) : Except Failure α :=
  match database with
  | some e => .error (.breakdown e)
  | none => answer

/-- An escrow that is there. -/
def Store.find (s : Store) (id : Identifier) : Except Failure Escrow :=
  match s.escrow? id with
  | some e => .ok e
  | none => .error (.escrow (.escrowNotFound id.text))

/-- An escrow, for the service or for a user who takes part in it. -/
def Store.readEscrow (s : Store) (id : Identifier) (user : Option String) :
    Except Failure Escrow := do
  let e ← s.find id
  match user with
  | some u =>
    if e.involves u none then return e
    else throw (.escrow (.forbidden u "view" (some "Not a party to this escrow")))
  | none => return e

/-- The audit log of an escrow, for the service or for a user who takes part in it. -/
def Store.readEvents (s : Store) (id : Identifier) (user : Option String) :
    Except Failure (List Event) := do
  discard (s.readEscrow id user)
  return s.eventsOf id

/-- Whether a user has to do with an escrow: as its creator or in a role. -/
def Store.isParty (s : Store) (id : Identifier) (user : String) : Bool :=
  (s.escrow? id).any fun e => e.creator = user || e.involves user none

/-- An escrow is shown exactly to its parties. -/
theorem readEscrow_eq_ok_iff {s : Store} {id : Identifier} {u : String} {e : Escrow} :
    s.readEscrow id (some u) = .ok e ↔ s.escrow? id = some e ∧ e.involves u none = true := by
  unfold Store.readEscrow Store.find
  cases h : s.escrow? id with
  | none => simp [bind, Except.bind]
  | some x =>
    by_cases hx : x.involves u none = true
    · simp only [bind, Except.bind, hx, if_true, pure, Except.pure, Except.ok.injEq, Option.some.injEq]
      constructor
      · rintro rfl; exact ⟨rfl, hx⟩
      · rintro ⟨rfl, _⟩; rfl
    · simp only [bind, Except.bind, hx, Option.some.injEq]
      constructor
      · intro e'; cases e'
      · rintro ⟨rfl, h'⟩; exact absurd h' hx

end Custody
