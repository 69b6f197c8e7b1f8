import Custody.Failure

/-!
# Who may do what

The policy is a table: for an action and a status it names the roles that permit it, or says that
the system acts and nobody is asked. The status is judged before the role, so an action that is
impossible in a status is never reported as a lack of rights. Editing is the exception: only the
buyer may ever edit, and an open escrow tells everyone else so in any status.
-/

namespace Custody

/-- Whom an action is open to in a status. -/
inductive Permission where
  | nobody
  | system
  | roles (rs : List Role)
deriving DecidableEq, Repr

/-- The policy table. -/
def permission : Action → Status → Permission
  | .update, .pending => .roles [.buyer]
  | .activate, .pending => .roles [.buyer]
  | .cancel, .pending => .roles [.buyer]
  | .cancel, .active => .roles [.buyer, .arbitrator]
  | .cancel, .disputed => .roles [.arbitrator]
  | .manualRelease, .active => .roles [.buyer]
  | .autoRelease, .active => .system
  | .confirmCondition, .active => .roles [.buyer, .seller, .arbitrator]
  | .raiseDispute, .active => .roles [.buyer, .seller]
  | .resolveDispute, .disputed => .roles [.arbitrator]
  | .expire, .pending => .system
  | .expire, .active => .system
  | _, _ => .nobody

/-- The roles that own an action whatever the status, where there are such. -/
def owners? : Action → Option (List Role)
  | .update => some [.buyer]
  | _ => none

/-- The outcome of a question to the policy. -/
inductive Verdict where
  | allow | forbidden | invalidState
deriving DecidableEq, Repr

instance : Worded Verdict where
  title := "Verdict"
  all := [.allow, .forbidden, .invalidState]
  word
    | .allow => "ALLOW"
    | .forbidden => "FORBIDDEN"
    | .invalidState => "INVALID_STATE"

/-- The verdict on an actor with some roles. -/
def verdict (a : Action) (s : Status) (held : List Role) : Verdict :=
  match permission a s with
  | .system => .allow
  | .roles rs => if rs.any (held.contains ·) then .allow else .forbidden
  | .nobody =>
    match owners? a with
    | some rs =>
      if !s.isTerminal && !rs.any (held.contains ·) then .forbidden else .invalidState
    | none => .invalidState

/-- The verdict where the status is a text: an unknown one permits nothing. -/
def verdictOn (a : Action) (s : String) (held : List Role) : Verdict :=
  match ofWord? s with
  | some s => verdict a s held
  | none => .invalidState

/-- The actor on record when nobody in particular acted. -/
def systemActor : String := "SYSTEM"

/-- What a verdict means for an actor: nothing, or a refusal. -/
def Verdict.enforce (v : Verdict) (a : Action) (status actor : String) : Except EscrowError Unit :=
  match v with
  | .allow => .ok ()
  | .invalidState => .error (.invalidState (.action a status))
  | .forbidden => .error (.forbidden actor (word a) none)

/-- Whether an actor may do something to an escrow with these parties in this status. -/
def authorize (status : Status) (parties : List Party) (actor : String) (a : Action) :
    Except EscrowError Unit :=
  (verdict a status (rolesFor parties actor)).enforce a (word status) actor

/-- A terminal status is never reported as a lack of rights. -/
theorem verdict_of_isTerminal {a : Action} {s : Status} {held : List Role}
    (h : s.isTerminal = true) : verdict a s held = .invalidState := by
  cases s <;> cases a <;> simp_all [verdict, permission, owners?, Status.isTerminal]

end Custody
