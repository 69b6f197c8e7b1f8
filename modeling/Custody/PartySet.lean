import Custody.Failure
import Custody.Schema.Request

/-!
# The parties of a new escrow

The creator is the buyer of an escrow, whether listed or not, and the rest of a list is kept in its
order. A list is refused when it gives the buyer's role to someone else, makes the creator the
seller, names a pair twice or has two sellers; of several offences the first kind counts.
-/

namespace Custody

/-- The first entry of a list that no other entry can make good. -/
def roleFault? (creator : String) (p : PartyInput) : Option DefinitionFault :=
  if p.role = .buyer ∧ p.user ≠ creator then some .foreignBuyer
  else if p.role = .seller ∧ p.user = creator then some .creatorSeller
  else none

/-- Reads the roles of a list in order, up to the first entry that names no role or that no other
entry can make good. -/
def screenEntries (creator : String) : List (String × Json) → Except Failure (List PartyInput)
  | [] => .ok []
  | (user, r) :: rest =>
    match ofValue (α := Role) r with
    | .error u => .error (.value (.word u))
    | .ok role =>
      match roleFault? creator ⟨user, role⟩ with
      | some f => .error (.escrow (.invalidDefinition f))
      | none => (screenEntries creator rest).map (⟨user, role⟩ :: ·)

/-- The first pair that occurs again further on. -/
def firstRepeated : List PartyInput → Option PartyInput
  | [] => none
  | p :: rest => if p ∈ rest then some p else firstRepeated rest

/-- The parties of an escrow with this creator and these entries. -/
def formParties (creator : String) (entries : List PartyInput) :
    Except DefinitionFault (List Party) :=
  match entries.findSome? (roleFault? creator) with
  | some f => .error f
  | none =>
    let others := entries.filter fun p => p.role ≠ .buyer
    match firstRepeated others with
    | some p => .error (.repeated p.user p.role)
    | none =>
      if 1 < (others.filter fun p => p.role = .seller).length then .error .secondSeller
      else .ok (⟨creator, .buyer⟩ :: others.map fun p => ⟨p.user, p.role⟩)

end Custody
