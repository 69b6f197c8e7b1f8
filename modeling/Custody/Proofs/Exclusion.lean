import Custody.Service.Interleaving
import Custody.Proofs.Identity
import Custody.Proofs.Queue

/-!
# One at a time for each escrow

Tasks that work on one escrow take turns. The stages that tasks are at and the queues of the locks
tell the same: who waits for the lock of an escrow or works on it is in its queue, and who works on
it is at its head.

> `Exclusive.step`: every step of every task keeps it so.
> `Exclusive.unique`: no two tasks work on one escrow.
-/

namespace Custody

/-- The escrow whose lock a task holds or waits for. -/
def Stage.lock? : Stage → Option Identifier
  | .waiting w => some w.escrow
  | .reading w _ _ => some w.escrow
  | .concluded w _ _ => some w.escrow
  | .closed x _ _ => some x
  | _ => none

/-- Whether a task works under a lock. -/
def Stage.holds : Stage → Bool
  | .reading .. | .concluded .. | .closed .. => true
  | _ => false

namespace Machine

/-- The queues of the locks are the tasks that hold them or wait for them. -/
structure Exclusive (m : Machine) : Prop where
  orderly : m.locks.Orderly
  queue : ∀ t key, t ∈ m.locks.queue key ↔ ∃ x, (m.stage t).lock? = some x ∧ x.text = key
  nodup : ∀ key, (m.locks.queue key).Nodup
  inside : ∀ t x, (m.stage t).holds = true → (m.stage t).lock? = some x →
    (m.locks.queue x.text).head? = some t

namespace Exclusive

variable {jobs : String → Job} {m : Machine} {t u : String} {clock : Int}

/-- No two tasks work on one escrow. -/
theorem unique (h : m.Exclusive) {x : Identifier} (ht : (m.stage t).holds = true)
    (hu : (m.stage u).holds = true) (hxt : (m.stage t).lock? = some x)
    (hxu : (m.stage u).lock? = some x) : t = u :=
  Option.some.inj ((h.inside t x ht hxt).symm.trans (h.inside u x hu hxu))

theorem start (v : Service) : (Machine.start v).Exclusive := by
  refine ⟨FifoLocks.orderly_empty, fun t key => ?_, fun key => List.nodup_nil, fun t x hs => ?_⟩
  · constructor
    · intro h
      cases h
    · rintro ⟨x, hx, -⟩
      cases hx
  · cases hs

/-- A task that goes on without touching a lock leaves the queues right. -/
theorem put (h : m.Exclusive) {m' : Machine} {s : Stage} (hlocks : m'.locks = m.locks)
    (hstage : m'.stage = (m.put t s).stage) (hlock : s.lock? = (m.stage t).lock?)
    (hin : ∀ x, s.holds = true → s.lock? = some x → (m.locks.queue x.text).head? = some t) :
    m'.Exclusive := by
  have hsame : ∀ u, (m'.stage u).lock? = (m.stage u).lock? := by
    intro u
    rw [hstage]
    by_cases hu : u = t
    · subst hu
      rw [stage_put_self, hlock]
    · rw [stage_put_of_ne hu]
  refine ⟨by rw [hlocks]; exact h.orderly, fun u key => ?_, by rw [hlocks]; exact h.nodup,
    fun u x hs hx => ?_⟩
  · rw [hlocks, h.queue, hsame]
  · rw [hlocks]
    by_cases hu : u = t
    · subst hu
      rw [hstage, stage_put_self] at hs hx
      exact hin x hs hx
    · rw [hstage, stage_put_of_ne hu] at hs hx
      exact h.inside u x hs hx

/-- Who asks for a lock is in its queue. -/
theorem hold (h : m.Exclusive) {w : Work} (ht : m.stage t = .asking w) :
    ({ m with locks := m.locks.step (.hold t w.escrow.text) }.put t (.waiting w)).Exclusive := by
  -- So far the task is in no queue.
  have hnone : ∀ key, t ∉ m.locks.queue key := by
    intro key hmem
    obtain ⟨x, hx, -⟩ := (h.queue t key).mp hmem
    rw [ht] at hx
    cases hx
  refine ⟨h.orderly.hold, fun u key => ?_, fun key => ?_, fun u x hs hx => ?_⟩
  · rw [locks_put, FifoLocks.queue_hold h.orderly]
    by_cases hu : u = t
    · subst hu
      rw [stage_put_self]
      by_cases hkey : key = w.escrow.text
      · simp [hkey, Stage.lock?]
      · rw [if_neg hkey]
        constructor
        · intro hmem
          exact absurd hmem (hnone key)
        · rintro ⟨x, hx, hxk⟩
          cases hx
          exact absurd hxk.symm hkey
    · rw [stage_put_of_ne hu]
      show _ ↔ ∃ x, (m.stage u).lock? = some x ∧ x.text = key
      rw [← h.queue]
      by_cases hkey : key = w.escrow.text
      · rw [if_pos hkey, ← hkey, List.mem_append, List.mem_singleton]
        exact ⟨fun hmem => hmem.resolve_right hu, Or.inl⟩
      · rw [if_neg hkey]
  · rw [locks_put, FifoLocks.queue_hold h.orderly]
    split
    next hkey =>
      rw [List.nodup_append]
      refine ⟨h.nodup _, by simp, fun a ha b hb hab => ?_⟩
      rw [List.mem_singleton] at hb
      rw [hab, hb] at ha
      exact hnone _ ha
    next => exact h.nodup key
  · rw [locks_put, FifoLocks.queue_hold h.orderly]
    by_cases hu : u = t
    · subst hu
      rw [stage_put_self] at hs
      cases hs
    · rw [stage_put_of_ne hu] at hs hx
      have hhead := h.inside u x hs hx
      split
      next hkey =>
        rw [← hkey, List.head?_append, hhead]
        rfl
      next => exact hhead

/-- Who works on an escrow holds its lock and no other. -/
theorem held (h : m.Exclusive) {x : Identifier} (hs : (m.stage t).holds = true)
    (hx : (m.stage t).lock? = some x) :
    (m.locks.lock x.text).holder = some t ∧
      ∀ k, (m.locks.lock k).holder = some t → k = x.text := by
  refine ⟨by rw [h.orderly.holder_eq_head?]; exact h.inside t x hs hx, fun k hk => ?_⟩
  rw [h.orderly.holder_eq_head?] at hk
  obtain ⟨y, hy, hyk⟩ := (h.queue t k).mp (List.mem_of_mem_head? hk)
  rw [hx] at hy
  cases hy
  exact hyk.symm

/-- Who gives a lock back leaves its queue. -/
theorem finish (h : m.Exclusive) {x : Identifier} {r : Except Failure Answer}
    {note : Option Notification} (ht : m.stage t = .closed x r note) :
    ({ m with locks := m.locks.step (.finish t) }.put t (.telling r note)).Exclusive := by
  have hs : (m.stage t).holds = true := by rw [ht]; rfl
  have hx : (m.stage t).lock? = some x := by rw [ht]; rfl
  obtain ⟨hheld, honly⟩ := h.held hs hx
  have hhead := h.inside t x hs hx
  have hqueue : ∀ key, (m.locks.step (.finish t)).queue key =
      if key = x.text then (m.locks.queue x.text).tail else m.locks.queue key :=
    FifoLocks.queue_finish h.orderly hheld honly
  obtain ⟨rest, hrest⟩ : ∃ rest, m.locks.queue x.text = t :: rest := by
    cases hq : m.locks.queue x.text with
    | nil =>
      rw [hq] at hhead
      cases hhead
    | cons a rest =>
      rw [hq] at hhead
      cases hhead
      exact ⟨rest, rfl⟩
  have hnodup := h.nodup x.text
  rw [hrest, List.nodup_cons] at hnodup
  refine ⟨h.orderly.finish hheld honly, fun u key => ?_, fun key => ?_, fun u y hsu hyu => ?_⟩
  · rw [locks_put, hqueue, hrest, List.tail_cons]
    by_cases hu : u = t
    · subst hu
      rw [stage_put_self]
      constructor
      · intro hmem
        split at hmem
        next => exact absurd hmem hnodup.1
        next hkey =>
          obtain ⟨y, hy, hyk⟩ := (h.queue u key).mp hmem
          rw [hx] at hy
          cases hy
          exact absurd hyk.symm hkey
      · rintro ⟨y, hy, -⟩
        cases hy
    · rw [stage_put_of_ne hu]
      show _ ↔ ∃ y, (m.stage u).lock? = some y ∧ y.text = key
      rw [← h.queue]
      split
      next hkey =>
        rw [hkey, hrest, List.mem_cons]
        exact ⟨Or.inr, fun hmem => hmem.resolve_left hu⟩
      next => exact Iff.rfl
  · rw [locks_put, hqueue, hrest, List.tail_cons]
    split
    next => exact hnodup.2
    next => exact h.nodup key
  · by_cases hu : u = t
    · subst hu
      rw [stage_put_self] at hsu
      cases hsu
    · rw [stage_put_of_ne hu] at hsu hyu
      -- Whoever else is inside is so at another lock, for this one was held by the task.
      have hne : y.text ≠ x.text := by
        intro hyx
        have hyx : y = x := Identifier.text_injective hyx
        subst hyx
        exact hu (h.unique hsu hs hyu hx)
      rw [locks_put, hqueue, if_neg hne]
      exact h.inside u y hsu hyu

/-- Every step keeps the queues right. -/
theorem step (h : m.Exclusive) : (m.step jobs t clock).Exclusive := by
  cases hst : m.stage t with
  | ready =>
    rw [step_ready hst]
    unfold begin
    -- There is no way to begin that touches a lock.
    have quiet : ∀ {m' : Machine} {s : Stage}, m'.locks = m.locks →
        m'.stage = (m.put t s).stage → s.lock? = none → m'.Exclusive := by
      intro m' s hl hs hn
      refine h.put hl hs (by rw [hn, hst]; rfl) fun x _ hx => ?_
      rw [hn] at hx
      cases hx
    split
    next => exact quiet rfl rfl rfl
    next => exact quiet rfl rfl rfl
    next =>
      split
      next => exact quiet rfl rfl rfl
      next =>
        split
        next => exact quiet rfl rfl rfl
        next => exact quiet rfl rfl rfl
  | asking w =>
    rw [step_asking hst]
    exact h.hold hst
  | waiting w =>
    by_cases hl : (m.locks.lock w.escrow.text).holder = some t
    · rw [step_waiting hst hl]
      have hhead : (m.locks.queue w.escrow.text).head? = some t := by
        rw [← h.orderly.holder_eq_head?]
        exact hl
      unfold read
      split
      next =>
        refine h.put rfl rfl (by rw [hst]; rfl) fun x _ hx => ?_
        cases hx
        exact hhead
      next =>
        refine h.put rfl rfl (by rw [hst]; rfl) fun x _ hx => ?_
        cases hx
        exact hhead
    · rw [step_blocked hst hl]
      exact h
  | reading w e p =>
    rw [step_reading hst]
    refine h.put rfl rfl (by rw [hst]; rfl) fun x _ hx => ?_
    exact h.inside t x (by rw [hst]; rfl) (by rw [hst]; exact hx)
  | concluded w e k =>
    rw [step_concluded hst]
    refine h.put rfl rfl (by rw [hst]; rfl) fun x _ hx => ?_
    exact h.inside t x (by rw [hst]; rfl) (by rw [hst]; exact hx)
  | closed x r note =>
    rw [step_closed hst]
    exact h.finish hst
  | telling r note =>
    rw [step_telling hst]
    refine h.put rfl rfl (by rw [hst]; rfl) fun x hs _ => ?_
    cases hs
  | finished r =>
    rw [step_finished hst]
    exact h

end Exclusive

end Machine

end Custody
