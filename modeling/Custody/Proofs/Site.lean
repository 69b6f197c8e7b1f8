import Custody.Api.Answer
import Custody.Proofs.Notice

/-!
# The service behind requests

A request does one operation or none, and leaves what it binds to the log until the next one
comes. So requests lead nowhere that operations do not lead, up to what is bound to the log, which
no record depends on; and others hear nothing of a request but what they hear of its operation.

> `Endpoint.atMostOne_answer`: a request to an endpoint does one operation or none.
> `Visited.reachable`: requests and happenings together lead to no other records than happenings.
-/

namespace Custody.Api

/-! ## Entries of requests -/

theorem Pulse.silent_log {event : String} (h : event ≠ "notification.logged") (p : Pulse) :
    ∀ l ∈ p.log event, l.Silent := by
  intro l hl
  cases p with
  | absent | healthy => cases hl
  | unhealthy m =>
    rw [List.mem_singleton.mp hl]
    exact LogEntry.silent_mk h _ _

theorem Vitals.silent_log (v : Vitals) : ∀ l ∈ v.log, l.Silent := by
  intro l hl
  rcases List.mem_append.mp hl with hl | hl
  · exact Pulse.silent_log (by decide) _ l hl
  · exact Pulse.silent_log (by decide) _ l hl

theorem silent_problemLog (f : Failure) : (problemLog f).Silent := by
  cases f with
  | escrow e => cases e <;> exact LogEntry.silent_mk (by decide) _ _
  | _ => exact LogEntry.silent_mk (by decide) _ _

/-! ## Checks -/

theorem silent_compareWith (id : String) (p : Projection) (view : RawState) :
    ∀ l ∈ (Check.compareWith id p view).log, l.Silent := by
  intro l hl
  unfold Check.compareWith at hl
  split at hl
  next => cases hl
  next => cases hl
  next =>
    rw [List.mem_singleton.mp hl]
    exact LogEntry.silent_mk (by decide) _ _

theorem silent_ofEscrow (database : Option String) (s : Store) (ledger : SimulatedLedger)
    (i : Identifier) : ∀ l ∈ (Check.ofEscrow database s ledger i).log, l.Silent := by
  intro l hl
  unfold Check.ofEscrow at hl
  simp only at hl
  split at hl
  next =>
    rw [List.mem_singleton.mp hl]
    exact LogEntry.silent_mk (by decide) _ _
  next =>
    rw [List.mem_singleton.mp hl]
    exact LogEntry.silent_mk (by decide) _ _
  next =>
    split at hl
    next => exact silent_compareWith _ _ _ l hl
    next =>
      rw [List.mem_singleton.mp hl]
      exact LogEntry.silent_mk (by decide) _ _
    next =>
      rw [List.mem_singleton.mp hl]
      exact LogEntry.silent_mk (by decide) _ _

/-- The entries of a consistency check stand for no notification. -/
theorem silent_audit (database : Option String) (s : Store) (ledger : SimulatedLedger)
    (ids : List Identifier) : ∀ l ∈ (audit database s ledger ids).log, l.Silent := by
  intro l hl
  rcases List.mem_append.mp hl with hl | hl
  · rcases List.mem_append.mp hl with hl | hl
    all_goals
      obtain ⟨c, hc, hl⟩ := List.mem_flatMap.mp hl
      obtain ⟨i, -, rfl⟩ := List.mem_map.mp hc
    · exact silent_ofEscrow _ _ _ _ l hl
    · simp only [Check.crashLog] at hl
      split at hl
      next => cases hl
      next =>
        rw [List.mem_singleton.mp hl]
        exact LogEntry.silent_mk (by decide) _ _
  · rw [List.mem_singleton.mp hl]
    exact LogEntry.silent_mk (by decide) _ _

/-! ## One operation or none -/

/-- What comes of a service: nothing, or what comes of one operation. Of the log it matters only
which notifications are in it. -/
inductive AtMostOneOperation (v : Service) : Service → Effects → Prop
  | nothing {fx : Effects} (hd : fx.Delivers .none) (hs : fx.settled = []) :
      AtMostOneOperation v v fx
  | operation {fx : Effects} (by' : Caller) (op : Operation)
      (hd : fx.Delivers (v.delivery (v.announced by' op)))
      (hs : fx.settled = (v.perform by' op).2.2.settled) :
      AtMostOneOperation v (v.perform by' op).2.1 fx

namespace AtMostOneOperation

variable {v w : Service} {fx : Effects}

/-- Entries that stand for no notification do not matter. -/
theorem followedBy_ofLog (h : AtMostOneOperation v w fx) {es : List LogEntry}
    (hes : ∀ l ∈ es, l.Silent) : AtMostOneOperation v w (fx.followedBy (Effects.ofLog es)) := by
  cases h with
  | nothing hd hs =>
    exact .nothing (hd.followedBy_ofLog hes) ((List.append_nil _).trans hs)
  | operation by' op hd hs =>
    exact .operation by' op (hd.followedBy_ofLog hes) ((List.append_nil _).trans hs)

/-- Nor does what is bound to the log. -/
theorem mark (h : AtMostOneOperation v w fx) (u : Service) :
    AtMostOneOperation v w (u.mark fx) := by
  cases h with
  | nothing hd hs => exact .nothing (hd.mark u) hs
  | operation by' op hd hs => exact .operation by' op (hd.mark u) hs

end AtMostOneOperation

/-- What comes of a reply. -/
def Reply.AtMostOne (v : Service) (p : Reply) : Prop := AtMostOneOperation v p.service p.effects

theorem Reply.atMostOne_only (v : Service) (r : Except Failure Response) :
    (Reply.only v r).AtMostOne v := .nothing Effects.delivers_nothing rfl

theorem Reply.atMostOne_ofOperation (v : Service) (status : Nat) (by' : Caller)
    {told : List LogEntry} (ht : ∀ l ∈ told, l.Silent) (op : Operation) :
    (ofOperation v status by' told op).AtMostOne v := by
  have hop : AtMostOneOperation v (v.perform by' op).2.1 (v.perform by' op).2.2 :=
    .operation by' op (v.delivers_perform by' op) rfl
  unfold ofOperation
  generalize v.perform by' op = o at hop ⊢
  obtain ⟨result, w, fx⟩ := o
  cases result with
  | error f => exact hop
  | ok a => exact hop.followedBy_ofLog ht

theorem atMostOne_answerTask (v : Service) (by' : Caller) (x : Identifier) (t : Task) :
    (answerTask v by' x t).AtMostOne v := by
  refine Reply.atMostOne_ofOperation _ _ _ (fun l hl => ?_) _
  split at hl
  next =>
    rw [List.mem_singleton.mp hl]
    exact LogEntry.silent_mk (by decide) _ _
  next => cases hl

/-- A call does one operation or none. -/
theorem Call.atMostOne_answer (s : Site) (by' : Caller) (c : Call) :
    (c.answer s by').AtMostOne s.service := by
  have untold : ∀ l ∈ ([] : List LogEntry), l.Silent := fun _ hl => nomatch hl
  cases c with
  | create | confirm => exact Reply.atMostOne_ofOperation _ _ _ untold _
  | task => exact atMostOne_answerTask ..
  | expire i reason =>
    unfold Call.answer
    simp only
    split
    next => exact Reply.atMostOne_only ..
    next => exact atMostOne_answerTask ..
  | health => exact (Reply.atMostOne_only ..).followedBy_ofLog s.vitals.silent_log
  | check ids =>
    refine .nothing (Effects.delivers_nothing.followedBy_ofLog fun l hl => ?_) rfl
    rcases List.mem_cons.mp hl with rfl | hl
    · exact LogEntry.silent_mk (by decide) _ _
    · exact silent_audit _ _ _ _ l hl
  | _ => exact Reply.atMostOne_only ..

/-- A request to an endpoint does one operation or none. -/
theorem Endpoint.atMostOne_answer (s : Site) (connection : String) (r : Request)
    (holes : List String) (e : Endpoint) :
    (e.answer s connection r holes).AtMostOne s.service := by
  unfold Endpoint.answer
  simp only
  split
  next => exact Reply.atMostOne_only ..
  next => exact Reply.atMostOne_only ..
  next =>
    split
    next => exact Reply.atMostOne_only ..
    next =>
      split
      next => exact Reply.atMostOne_only ..
      next =>
        split
        next => exact Reply.atMostOne_only ..
        next => exact Call.atMostOne_answer ..

/-- So does any request, and then its own context is bound to the log. -/
theorem atMostOne_answer (s : Site) (connection : String) (r : Request) :
    ∃ w, AtMostOneOperation s.service w (answer s connection r).2.2 ∧
      (answer s connection r).2.1 = { w with context := r.context } := by
  have hshare : (share s connection r).AtMostOne s.service := by
    unfold share
    simp only
    split
    next => exact Reply.atMostOne_only ..
    next =>
      unfold route
      simp only
      split
      next => exact Endpoint.atMostOne_answer ..
      next => exact Reply.atMostOne_only ..
      next => exact Reply.atMostOne_only ..
      next => exact Reply.atMostOne_only ..
  refine ⟨(share s connection r).service, ?_, rfl⟩
  refine AtMostOneOperation.mark (AtMostOneOperation.followedBy_ofLog hshare fun l hl => ?_) _
  -- Only a failure leaves an entry of its own.
  split at hl
  next => cases hl
  next f _ =>
    rw [List.mem_singleton.mp hl]
    exact silent_problemLog f

end Custody.Api

namespace Custody

/-- The services that happenings and requests lead to. -/
inductive Visited : Service → Prop
  | start (clock : Int) (settings : Settings) (dispatcher : Dispatcher) (lease : Option Lease) :
      Visited (Service.start clock settings dispatcher lease)
  | happening {v : Service} (a : Happening) (h : Visited v) : Visited (v.after a)
  | request {v : Service} (host : Api.Host) (connection : String) (r : Api.Request)
      (h : Visited v) : Visited (Api.answer ⟨host, v⟩ connection r).2.1

theorem Reachable.visited {v : Service} (h : Reachable v) : Visited v := by
  induction h with
  | start clock settings dispatcher lease => exact .start clock settings dispatcher lease
  | step a _ ih => exact .happening a ih

/-- Requests and happenings lead to no other services than happenings, what is bound to the log
aside. -/
theorem Visited.reachable {v : Service} (h : Visited v) : Reachable { v with context := [] } := by
  induction h with
  | start clock settings dispatcher lease => exact .start clock settings dispatcher lease
  | @happening v a h ih =>
    -- No happening looks at what is bound to the log.
    have hcomm : { v.after a with context := [] } =
        Service.after { v with context := [] } a := by
      cases a <;> rfl
    rw [hcomm]
    exact ih.step a
  | @request v host connection r h ih =>
    obtain ⟨w, hw, hanswer⟩ := Api.atMostOne_answer ⟨host, v⟩ connection r
    rw [hanswer]
    cases hw with
    | nothing => exact ih
    | operation by' op => exact ih.step (.operation by' op)

end Custody
