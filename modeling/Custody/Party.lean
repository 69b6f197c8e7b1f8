import Custody.Vocabulary

/-!
# Parties

A party is a user with a role on an escrow. The creator of an escrow is its buyer; the seller is
the one to whom a release is paid.
-/

namespace Custody

/-- A user's role on an escrow. -/
structure Party where
  user : String
  role : Role
deriving DecidableEq, Repr, Inhabited

/-- Every role that a user holds. -/
def rolesFor (parties : List Party) (user : String) : List Role :=
  (parties.filter fun p => p.user = user).map (·.role)

/-- The user to whom a release is paid: the first seller. -/
def recipient? (parties : List Party) : Option String :=
  (parties.find? fun p => p.role = .seller).map (·.user)

/-- A user holds a role exactly when a party says so. -/
theorem mem_rolesFor {parties : List Party} {user : String} {r : Role} :
    r ∈ rolesFor parties user ↔ ⟨user, r⟩ ∈ parties := by
  simp only [rolesFor, List.mem_map, List.mem_filter, decide_eq_true_eq]
  constructor
  · rintro ⟨p, ⟨hp, rfl⟩, rfl⟩; exact hp
  · intro h; exact ⟨_, ⟨h, rfl⟩, rfl⟩

end Custody
