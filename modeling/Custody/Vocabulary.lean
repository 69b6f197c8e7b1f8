import Custody.Json.Display

/-!
# Vocabulary

The closed sets of words that escrows, requests and events are described with. Each set is a type;
`Worded` says how its members are written and what the set is called in a message about a word
that does not belong to it.

> `ofWord?_word`: a member is found again by its word.
-/

namespace Custody

/-- A closed set of words: its title, its members, and how each is written. -/
class Worded (α : Type) where
  title : String
  all : List α
  word : α → String

export Worded (word)

/-- The member with a given word. -/
def ofWord? {α : Type} [Worded α] (w : String) : Option α :=
  (Worded.all : List α).find? fun a => word a = w

/-- A word that is no member of the set with the given title; the value is shown as in
messages. -/
structure UnknownWord where
  value : String
  title : String
deriving DecidableEq, Repr

/-- The text of the complaint. -/
def UnknownWord.message (u : UnknownWord) : String :=
  u.value ++ " is not a valid " ++ u.title

/-- The member that a value names. -/
def ofValue {α : Type} [Worded α] (v : Json) : Except UnknownWord α :=
  match v with
  | .text w =>
    match ofWord? w with
    | some a => .ok a
    | none => .error ⟨Text.quoted w, Worded.title α⟩
  | v => .error ⟨v.literal, Worded.title α⟩

/-- The lifecycle states of an escrow. -/
inductive Status where
  | pending | active | completed | cancelled | disputed
deriving DecidableEq, Repr, Inhabited

instance : Worded Status where
  title := "EscrowStatus"
  all := [.pending, .active, .completed, .cancelled, .disputed]
  word
    | .pending => "PENDING"
    | .active => "ACTIVE"
    | .completed => "COMPLETED"
    | .cancelled => "CANCELLED"
    | .disputed => "DISPUTED"

/-- The two kinds of escrow. -/
inductive EscrowType where
  | standard | milestone
deriving DecidableEq, Repr, Inhabited

instance : Worded EscrowType where
  title := "EscrowType"
  all := [.standard, .milestone]
  word
    | .standard => "STANDARD"
    | .milestone => "MILESTONE"

/-- What a user is on an escrow: the depositor, the recipient of a release, or a judge. -/
inductive Role where
  | buyer | seller | arbitrator
deriving DecidableEq, Repr, Inhabited

instance : Worded Role where
  title := "PartyRole"
  all := [.buyer, .seller, .arbitrator]
  word
    | .buyer => "BUYER"
    | .seller => "SELLER"
    | .arbitrator => "ARBITRATOR"

/-- How a condition comes to be met. -/
inductive ConditionType where
  | manual | milestone | external
deriving DecidableEq, Repr, Inhabited

instance : Worded ConditionType where
  title := "ConditionType"
  all := [.manual, .milestone, .external]
  word
    | .manual => "MANUAL"
    | .milestone => "MILESTONE"
    | .external => "EXTERNAL"

/-- What the audit log records. -/
inductive EventType where
  | created | updated | activated | conditionMet | disputed | completed | cancelled | expired
deriving DecidableEq, Repr, Inhabited

instance : Worded EventType where
  title := "EventType"
  all := [.created, .updated, .activated, .conditionMet, .disputed, .completed, .cancelled, .expired]
  word
    | .created => "CREATED"
    | .updated => "UPDATED"
    | .activated => "ACTIVATED"
    | .conditionMet => "CONDITION_MET"
    | .disputed => "DISPUTED"
    | .completed => "COMPLETED"
    | .cancelled => "CANCELLED"
    | .expired => "EXPIRED"

/-- What the authorization policy decides about. -/
inductive Action where
  | update | activate | cancel | manualRelease | autoRelease | confirmCondition | raiseDispute
  | resolveDispute | expire
deriving DecidableEq, Repr, Inhabited

instance : Worded Action where
  title := "EscrowAction"
  all := [.update, .activate, .cancel, .manualRelease, .autoRelease, .confirmCondition,
    .raiseDispute, .resolveDispute, .expire]
  word
    | .update => "UPDATE"
    | .activate => "ACTIVATE"
    | .cancel => "CANCEL"
    | .manualRelease => "MANUAL_RELEASE"
    | .autoRelease => "AUTO_RELEASE"
    | .confirmCondition => "CONFIRM_CONDITION"
    | .raiseDispute => "RAISE_DISPUTE"
    | .resolveDispute => "RESOLVE_DISPUTE"
    | .expire => "EXPIRE"

/-- How an arbitrator ends a dispute: the seller is paid, or the depositor keeps the funds. -/
inductive Resolution where
  | release | refund
deriving DecidableEq, Repr, Inhabited

instance : Worded Resolution where
  title := "DisputeResolution"
  all := [.release, .refund]
  word
    | .release => "RELEASE"
    | .refund => "REFUND"

/-- What is notified to the outside. -/
inductive Notice where
  | created | updated | activated | disputed | released | cancelled | expired
deriving DecidableEq, Repr, Inhabited

instance : Worded Notice where
  title := "NotificationEvent"
  all := [.created, .updated, .activated, .disputed, .released, .cancelled, .expired]
  word
    | .created => "escrow.created"
    | .updated => "escrow.updated"
    | .activated => "escrow.activated"
    | .disputed => "escrow.disputed"
    | .released => "escrow.released"
    | .cancelled => "escrow.cancelled"
    | .expired => "escrow.expired"

/-- The side from which a user asks for an overview. -/
inductive OverviewRole where
  | depositor | recipient | any
deriving DecidableEq, Repr, Inhabited

instance : Worded OverviewRole where
  title := "OverviewRole"
  all := [.depositor, .recipient, .any]
  word
    | .depositor => "depositor"
    | .recipient => "recipient"
    | .any => "any"

/-- The status filter of an overview; `expired` is a status with a deadline that has passed. -/
inductive OverviewStatus where
  | created | pending | active | completed | cancelled | disputed | expired
deriving DecidableEq, Repr, Inhabited

instance : Worded OverviewStatus where
  title := "OverviewStatus"
  all := [.created, .pending, .active, .completed, .cancelled, .disputed, .expired]
  word
    | .created => "created"
    | .pending => "pending"
    | .active => "active"
    | .completed => "completed"
    | .cancelled => "cancelled"
    | .disputed => "disputed"
    | .expired => "expired"

/-- What an overview is sorted by. -/
inductive OverviewSort where
  | createdAt | deadline
deriving DecidableEq, Repr, Inhabited

instance : Worded OverviewSort where
  title := "OverviewSortBy"
  all := [.createdAt, .deadline]
  word
    | .createdAt => "createdAt"
    | .deadline => "deadline"

/-- The direction of an order. -/
inductive SortOrder where
  | asc | desc
deriving DecidableEq, Repr, Inhabited

instance : Worded SortOrder where
  title := "SortOrder"
  all := [.asc, .desc]
  word
    | .asc => "asc"
    | .desc => "desc"

/-- Different states have different words. -/
theorem word_injective {a b : Status} (h : word a = word b) : a = b := by
  revert h; cases a <;> cases b <;> decide

/-- A state is found again by its word. -/
theorem ofWord?_word (s : Status) : ofWord? (word s) = some s := by
  cases s <;> decide

end Custody
