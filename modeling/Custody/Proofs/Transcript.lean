import Custody.Proofs.Rest

/-!
# Transcripts

A service does not remember what it answered, and nobody but the dispatcher knows what it was given.
A transcript keeps both for a whole run: the answers of the operations, what they gave to the
dispatcher and when, and what others got to see of it all.

> `Service.delivers_shown`: while the dispatcher works, others get what it makes of the notifications
> that it was given, in their order, and nothing else.
-/

namespace Custody

/-! ## What is given to a dispatcher -/

namespace Delivery

/-- Deliveries one after another. -/
def followedBy (a b : Delivery) : Delivery :=
  ⟨a.sent ++ b.sent, a.queued ++ b.queued, a.log ++ b.log⟩

theorem followedBy_none (d : Delivery) : d.followedBy none = d := by
  simp only [followedBy, none, List.append_nil]

theorem followedBy_assoc (a b c : Delivery) :
    (a.followedBy b).followedBy c = a.followedBy (b.followedBy c) := by
  simp only [followedBy, List.append_assoc]

end Delivery

namespace Dispatcher

/-- What a dispatcher that works makes of notifications, each at its time. -/
def deliver (d : Dispatcher) : List (Moment × Notification) → Delivery
  | [] => .none
  | (now, n) :: rest => (d.send none now (some n)).followedBy (d.deliver rest)

theorem deliver_append (d : Dispatcher) (as bs : List (Moment × Notification)) :
    d.deliver (as ++ bs) = (d.deliver as).followedBy (d.deliver bs) := by
  induction as with
  | nil => rfl
  | cons a as ih => rw [List.cons_append, deliver, deliver, ih, Delivery.followedBy_assoc]

/-- A dispatcher that keeps notifications keeps those that it was given, as they are. -/
theorem sent_deliver_recorder (told : List (Moment × Notification)) :
    (recorder.deliver told).sent = told.map (·.2) := by
  induction told with
  | nil => rfl
  | cons t told ih =>
    rw [deliver, List.map_cons, ← ih]
    rfl

/-- A queue gets an envelope for each. -/
theorem queued_deliver_queue (key : String) (told : List (Moment × Notification)) :
    ((queue key).deliver told).queued = told.map fun t => (key, t.2.envelope t.1) := by
  induction told with
  | nil => rfl
  | cons t told ih =>
    rw [deliver, List.map_cons, ← ih]
    rfl

end Dispatcher

/-- Effects one after another tell what the deliveries do. -/
theorem Effects.Delivers.followedBy {fx fy : Effects} {a b : Delivery} (ha : fx.Delivers a)
    (hb : fy.Delivers b) : (fx.followedBy fy).Delivers (a.followedBy b) := by
  refine ⟨congrArg₂ (· ++ ·) ha.sent hb.sent, congrArg₂ (· ++ ·) ha.queued hb.queued,
    fun l hl hs => ?_⟩
  rcases List.mem_append.mp hl with hl | hl
  · obtain ⟨k, hk, h⟩ := ha.logged l hl hs
    exact ⟨k, List.mem_append_left _ hk, h⟩
  · obtain ⟨k, hk, h⟩ := hb.logged l hl hs
    exact ⟨k, List.mem_append_right _ hk, h⟩

/-! ## Runs -/

namespace Service

/-- What is given to the dispatcher while something happens, and when. -/
def tells (v : Service) : Happening → List (Moment × Notification)
  | .operation by' op => (v.announced by' op).toList.map fun n => (v.now, n)
  | _ => []

/-- What is answered while something happens. -/
def answer (v : Service) : Happening → List (Except Failure Answer)
  | .operation by' op => [(v.perform by' op).1]
  | _ => []

/-- What the dispatcher is given during a run, in order. -/
def told (v : Service) : List Happening → List (Moment × Notification)
  | [] => []
  | a :: hs => v.tells a ++ (v.after a).told hs

/-- The answers of a run, one for each operation. -/
def answers (v : Service) : List Happening → List (Except Failure Answer)
  | [] => []
  | a :: hs => v.answer a ++ (v.after a).answers hs

/-- What others get to see of a run. -/
def shown (v : Service) : List Happening → Effects
  | [] => .nothing
  | a :: hs => (v.seen a).followedBy ((v.after a).shown hs)

theorem told_concat (v : Service) (hs : List Happening) (a : Happening) :
    v.told (hs ++ [a]) = v.told hs ++ (v.run hs).tells a := by
  induction hs generalizing v with
  | nil => exact List.append_nil _
  | cons b hs ih =>
    rw [List.cons_append, told, told, ih, List.append_assoc]
    rfl

/-- What happens to a working dispatcher short of breaking it leaves it at work. -/
theorem after_dispatcher {v : Service} (hd : v.brokenDispatcher = none) {a : Happening}
    (ha : ∀ r, a ≠ .dispatcherBreaks (some r)) :
    (v.after a).brokenDispatcher = none ∧ (v.after a).dispatcher = v.dispatcher := by
  cases a with
  | dispatcherBreaks r =>
    cases r with
    | none => exact ⟨rfl, rfl⟩
    | some r => exact absurd rfl (ha r)
  | _ => exact ⟨hd, rfl⟩

/-- Of a step others get what a working dispatcher makes of what it was given. -/
theorem delivers_seen {v : Service} (hd : v.brokenDispatcher = none) (a : Happening) :
    (v.seen a).Delivers (v.dispatcher.deliver (v.tells a)) := by
  cases a with
  | operation by' op =>
    have hdelivery : v.delivery (v.announced by' op) =
        v.dispatcher.deliver (v.tells (.operation by' op)) := by
      rw [delivery, hd, tells]
      cases v.announced by' op with
      | none => rfl
      | some n => exact (Delivery.followedBy_none _).symm
    rw [← hdelivery]
    exact v.delivers_perform by' op
  | _ => exact Effects.delivers_nothing

/-- While the dispatcher works, others get what it makes of the notifications that it was given in
a run, and nothing else. -/
theorem delivers_shown {v : Service} (hd : v.brokenDispatcher = none) {hs : List Happening}
    (hworks : ∀ r, .dispatcherBreaks (some r) ∉ hs) :
    (v.shown hs).Delivers (v.dispatcher.deliver (v.told hs)) := by
  induction hs generalizing v with
  | nil => exact Effects.delivers_nothing
  | cons a hs ih =>
    obtain ⟨hnext, hsame⟩ := after_dispatcher hd (a := a)
      fun r ha => hworks r (ha ▸ List.mem_cons_self ..)
    have hrest := ih hnext fun r hr => hworks r (List.mem_cons_of_mem _ hr)
    rw [hsame] at hrest
    rw [told, Dispatcher.deliver_append]
    exact (delivers_seen hd a).followedBy hrest

end Service

end Custody
