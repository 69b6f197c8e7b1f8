import Custody.Store.Basic
import Custody.Notification

/-!
# Writes

What an operation on an escrow writes: a condition that was met, a change of the record, entries of
the audit log. With it goes what it tells: log entries, and the request to notify. Writes are
applied together or not at all, and the store looks at the changed record before it takes it.

> `eventsOf_apply`: writes leave the audit log as it was, up to what they add at its end.
-/

namespace Custody

/-- A change of the record of an escrow. -/
inductive Patch where
  | terms (changes : List Change)
  | activation (transaction : Option String)
  | dispute
  | completion (transaction : String)
  | cancellation
deriving DecidableEq, Repr

/-- A record with a term changed. -/
def Change.apply (e : Escrow) : Change → Escrow
  | .title t => { e with title := t }
  | .description d => { e with description := d }
  | .deadline m => { e with deadline := m }

/-- A record with a change. -/
def Patch.apply (e : Escrow) : Patch → Escrow
  | .terms cs => cs.foldl Change.apply e
  | .activation t => { e with status := .active, fundingTransaction := t }
  | .dispute => { e with status := .disputed }
  | .completion t =>
    { e with status := .completed, released := true, releaseTransaction := some t }
  | .cancellation => { e with status := .cancelled }

/-- A record with a change, which is then as new as the clock says. -/
def Patch.applyAt (now : Moment) (e : Escrow) (p : Patch) : Escrow :=
  { p.apply e with updatedAt := now }

/-- An event before it has a number and a time. -/
structure EventDraft where
  type : EventType
  actor : String
  oldStatus : Option Status
  newStatus : Option Status
  data : EventData
  address : Option String
deriving Repr

/-- What is to be notified beside the state of the escrow. -/
structure Announcement where
  notice : Notice
  extra : List (String × LogValue)
deriving Repr

/-- The notification of an announcement about an escrow in its new state. -/
def Announcement.about (a : Announcement) (e : Escrow) : Notification :=
  Notification.ofState a.notice e.id (word e.status) e.amount.text e.asset e.creator e.recipient?
    a.extra

/-- What an operation writes and tells. `log` is written as it goes on, `closing` when all is
done. -/
structure Writes where
  met : Option (Identifier × String) := none
  patch : Option Patch := none
  drafts : List EventDraft := []
  announcement : Option Announcement := none
  log : List LogEntry := []
  closing : List LogEntry := []

namespace Writes

/-- Nothing is written or told. -/
def nothing : Writes := {}

/-- Writes one after another. -/
def followedBy (a b : Writes) : Writes :=
  { met := b.met <|> a.met
    patch := b.patch <|> a.patch
    drafts := a.drafts ++ b.drafts
    announcement := b.announcement <|> a.announcement
    log := a.log ++ b.log
    closing := a.closing ++ b.closing }

end Writes

namespace Store

/-- The store with a drafted event at the end of the log of an escrow; `n` numbers the event. -/
def enter (s : Store) (now : Moment) (escrow : Identifier) (n : Nat) (d : EventDraft) : Store :=
  s.append
    { id := Identifier.event n, escrow := escrow, sequence := s.nextSequence escrow
      type := d.type, actor := d.actor, oldStatus := d.oldStatus.map word
      newStatus := d.newStatus.map word, data := d.data, address := d.address, recordedAt := now }

/-- The store with drafted events one after another; `n` numbers the first. -/
def enterAll (s : Store) (now : Moment) (escrow : Identifier) : Nat → List EventDraft → Store
  | _, [] => s
  | n, d :: ds => (s.enter now escrow n d).enterAll now escrow (n + 1) ds

/-- The store with the record of an escrow changed, unless it has something against the record. -/
def patch (s : Store) (now : Moment) (escrow : Identifier) (p : Patch) : Except Constraint Store :=
  match (s.stored? escrow).bind fun e => (p.applyAt now e).row.fault? with
  | some c => .error c
  | none => .ok (s.modify escrow fun e => p.applyAt now e)

/-- The store with writes applied; `n` numbers the first event. -/
def apply (s : Store) (now : Moment) (escrow : Identifier) (n : Nat) (w : Writes) :
    Except Constraint Store :=
  let s := match w.met with
    | some (c, user) => s.meet c now user
    | none => s
  (match w.patch with
    | some p => s.patch now escrow p
    | none => .ok s).map fun t => Store.enterAll t now escrow n w.drafts

@[simp]
theorem events_enter (s : Store) (now : Moment) (escrow : Identifier) (n : Nat) (d : EventDraft) :
    (s.enter now escrow n d).events =
      s.events ++
        [{ id := Identifier.event n, escrow := escrow, sequence := s.nextSequence escrow
           type := d.type, actor := d.actor, oldStatus := d.oldStatus.map word
           newStatus := d.newStatus.map word, data := d.data, address := d.address
           recordedAt := now }] := rfl

theorem events_enterAll (s : Store) (now : Moment) (escrow : Identifier) (n : Nat)
    (ds : List EventDraft) :
    ∃ es, (s.enterAll now escrow n ds).events = s.events ++ es ∧ es.length = ds.length := by
  induction ds generalizing s n with
  | nil => exact ⟨[], by simp [enterAll]⟩
  | cons d ds ih =>
    obtain ⟨es, h, hl⟩ := ih (s.enter now escrow n d) (n + 1)
    exact ⟨[_] ++ es, by rw [enterAll, h, events_enter, List.append_assoc], by simp [hl]⟩

/-- Writes add to the audit log and change nothing in it. -/
theorem eventsOf_apply {s t : Store} {now : Moment} {escrow : Identifier} {n : Nat} {w : Writes}
    (h : s.apply now escrow n w = .ok t) :
    ∃ es, t.events = s.events ++ es ∧ es.length = w.drafts.length := by
  unfold apply at h
  have key : ∀ u v : Store, u.events = s.events → v = u.enterAll now escrow n w.drafts →
      ∃ es, v.events = s.events ++ es ∧ es.length = w.drafts.length := by
    rintro u v hu rfl
    obtain ⟨es, he, hl⟩ := events_enterAll u now escrow n w.drafts
    exact ⟨es, by rw [he, hu], hl⟩
  have hm : ∀ c user, (s.meet c now user).events = s.events := fun _ _ => rfl
  have hp : ∀ u v : Store, ∀ p, u.patch now escrow p = .ok v → v.events = u.events := by
    intro u v p hv
    unfold Store.patch at hv
    split at hv
    · cases hv
    · cases hv; rfl
  cases hmet : w.met with
  | none =>
    simp only [hmet] at h
    cases hpatch : w.patch with
    | none =>
      simp only [hpatch, Except.map] at h
      cases h; exact key s _ rfl rfl
    | some p =>
      simp only [hpatch] at h
      cases hv : s.patch now escrow p with
      | error c => simp [hv, Except.map] at h
      | ok v =>
        simp only [hv, Except.map] at h
        cases h; exact key v _ (hp s v p hv) rfl
  | some m =>
    obtain ⟨c, user⟩ := m
    simp only [hmet] at h
    cases hpatch : w.patch with
    | none =>
      simp only [hpatch, Except.map] at h
      cases h; exact key _ _ (hm c user) rfl
    | some p =>
      simp only [hpatch] at h
      cases hv : (s.meet c now user).patch now escrow p with
      | error c => simp [hv, Except.map] at h
      | ok v =>
        simp only [hv, Except.map] at h
        cases h; exact key v _ ((hp _ v p hv).trans (hm c user)) rfl

end Store

end Custody
