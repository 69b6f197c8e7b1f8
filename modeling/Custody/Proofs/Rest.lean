import Custody.Proofs.Frame
import Custody.Proofs.Site

/-!
# Closed escrows rest

A closed escrow is turned away in three places: by the policy, by the lifecycle, and by the release
and the confirmation themselves, which let a repeated request succeed without doing anything. Between
them nothing is left through: whatever anybody asks for later, and whatever else happens, an escrow
that is completed or cancelled stays as it is, down to the time of its last change, and nobody
hears of it again.

> `Visited.spared`: nothing that happens to a service and no request leaves a trace on a closed
> escrow.
> `terminal_frozen`: so it rests in every run from the moment when it is closed.
-/

namespace Custody

/-- What can come upon a service: something that happens, or a request. -/
inductive Visit where
  | happening (a : Happening)
  | request (host : Api.Host) (connection : String) (r : Api.Request)

namespace Service

/-- What others get to see of a happening. -/
def seen (v : Service) : Happening → Effects
  | .operation by' op => (v.perform by' op).2.2
  | _ => .nothing

/-- The service after a visit, and what others get to see of it. -/
def undergo (v : Service) : Visit → Service × Effects
  | .happening a => (v.after a, v.seen a)
  | .request host connection r => (Api.answer ⟨host, v⟩ connection r).2

/-- The service after visits, one after another. -/
def through (v : Service) (as : List Visit) : Service := as.foldl (fun v a => (v.undergo a).1) v

end Service

namespace Visited

variable {v : Service} {e : Escrow}

theorem undergo (h : Visited v) (a : Visit) : Visited (v.undergo a).1 := by
  cases a with
  | happening a => exact .happening a h
  | request host connection r => exact .request host connection r h

theorem kept (h : Visited v) : Kept v.store v.counters := h.reachable.kept

/-- Nothing that happens to a service and no request leaves a trace on a closed escrow. -/
theorem spared (h : Visited v) (he : e ∈ v.store.escrows) (ht : e.status.isTerminal = true)
    (a : Visit) : v.Spared (v.undergo a).1 (v.undergo a).2 e.id := by
  cases a with
  | happening a =>
    cases a with
    | operation by' op => exact Service.spared_perform h.kept he by' fun _ => ht
    | _ => refine Service.spared_of_eq ?_ ?_ ?_ Effects.delivers_nothing _ <;> rfl
  | request host connection r =>
    -- A request does one operation or none, and binds its own context to the log.
    obtain ⟨w, hw, hanswer⟩ := Api.atMostOne_answer ⟨host, v⟩ connection r
    show v.Spared (Api.answer ⟨host, v⟩ connection r).2.1 _ e.id
    rw [hanswer]
    cases hw with
    | nothing hd hs => refine Service.spared_of_eq ?_ ?_ hs hd _ <;> rfl
    | operation by' op hd hs =>
      exact Service.spared_of_spares (Operation.spares h.kept he by' fun _ => ht) rfl rfl hs hd

end Visited

/-- What a store has about an escrow includes its record. -/
theorem Store.mem_of_part_eq {s t : Store} (h : t.part e.id = s.part e.id) (he : e ∈ s.escrows) :
    e ∈ t.escrows := by
  have hmem : e ∈ (s.part e.id).escrows := List.mem_filter.mpr ⟨he, decide_eq_true rfl⟩
  rw [← h] at hmem
  exact (List.mem_filter.mp hmem).1

/-- A closed escrow is as it was after any visits. -/
theorem Service.part_through {v : Service} (h : Visited v) {e : Escrow} (he : e ∈ v.store.escrows)
    (ht : e.status.isTerminal = true) (as : List Visit) :
    Visited (v.through as) ∧ (v.through as).store.part e.id = v.store.part e.id ∧
      (v.through as).ledger.settlementsOf e.id = v.ledger.settlementsOf e.id := by
  induction as generalizing v with
  | nil => exact ⟨h, rfl, rfl⟩
  | cons a as ih =>
    have hstep := h.spared he ht a
    obtain ⟨hvisited, hpart, hsettlements⟩ :=
      ih (h.undergo a) (Store.mem_of_part_eq hstep.part he)
    exact ⟨hvisited, hpart.trans hstep.part, hsettlements.trans hstep.settlements⟩

/-- Once an escrow is completed or cancelled, in any run of happenings and requests, it rests. Its
record, parties included, its conditions, its events and its settlements are the same whatever
comes, and of nothing that comes is anything told or paid that is about it. -/
theorem terminal_frozen {v : Service} (h : Visited v) {e : Escrow} (he : e ∈ v.store.escrows)
    (ht : e.status = .completed ∨ e.status = .cancelled) (as : List Visit) :
    (v.through as).store.part e.id = v.store.part e.id ∧
      (v.through as).ledger.settlementsOf e.id = v.ledger.settlementsOf e.id ∧
      ∀ before a after, as = before ++ a :: after →
        (v.through before).Spared ((v.through before).undergo a).1
          ((v.through before).undergo a).2 e.id := by
  have hterminal : e.status.isTerminal = true := by
    rcases ht with ht | ht <;> rw [ht] <;> rfl
  obtain ⟨-, hpart, hsettlements⟩ := Service.part_through h he hterminal as
  refine ⟨hpart, hsettlements, fun before a after _ => ?_⟩
  obtain ⟨hvisited, hpart, -⟩ := Service.part_through h he hterminal before
  exact hvisited.spared (Store.mem_of_part_eq hpart he) hterminal a

/-- The sale called off by the buyer when one condition is met and the other still open. -/
def cancelledService : Service :=
  soldService.run
    [.operation ⟨"seller", none⟩ (.confirm (Identifier.condition 1)),
      .operation ⟨"buyer", none⟩ (.task (Identifier.escrow 1) (.cancel none))]

/-- What is asked for when it is too late: the confirmation that was made already, the one that was
not, and a release by a request. -/
def lateVisits : List Visit :=
  [.happening (.operation ⟨"buyer", none⟩ (.confirm (Identifier.condition 1))),
    .happening (.operation ⟨"seller", none⟩ (.confirm (Identifier.condition 2))),
    .request .usual "127.0.0.1"
      { method := "POST"
        path := "/api/v1/escrows/e0000000-0000-0000-0000-000000000001/release".toList
        query := [], headers := [("x-user-id", "buyer")], body := none, spare := 0 }]

/-- It changes nothing about the sale. -/
theorem terminal_frozen_cancelledService :
    ∃ e ∈ cancelledService.store.escrows, e.status = .cancelled ∧
      (cancelledService.through lateVisits).store.part e.id = cancelledService.store.part e.id ∧
      (cancelledService.through lateVisits).ledger.settlementsOf e.id =
        cancelledService.ledger.settlementsOf e.id := by
  obtain ⟨e, he, hc⟩ : ∃ e ∈ cancelledService.store.escrows, e.status = .cancelled := by
    decide +kernel
  obtain ⟨hpart, hsettlements, -⟩ :=
    terminal_frozen (soldService_reachable.run _).visited he (.inr hc) lateVisits
  exact ⟨e, he, hc, hpart, hsettlements⟩

end Custody
