import Custody.Lock.Fifo
import Custody.Proofs.Identity

/-!
# Locks as queues

A lock that is passed on as soon as it is free is a queue of tasks with the holder at its head. In
these terms a step is simple: who asks joins at the end, and when the holder leaves the queue moves
up.

> `queue_hold`, `queue_finish`: so it is, and no other queue moves.
> `Orderly.hold`, `Orderly.finish`: the steps keep to it.
-/

namespace Custody

namespace FifoLocks

/-- Everybody who has asked for a lock and has not left it, the holder first. -/
def queue (s : FifoLocks) (key : String) : List String :=
  (s.lock key).holder.toList ++ (s.lock key).waiting

/-- Nobody leaves before his turn, every key has one lock, and no free lock is waited for. -/
structure Orderly (s : FifoLocks) : Prop where
  patient : s.ending = []
  keys : (s.locks.map (·.1)).Nodup
  passed : ∀ p ∈ s.locks, p.2.holder = none → p.2.waiting = []

theorem orderly_empty : Orderly empty := ⟨rfl, List.nodup_nil, fun _ hp => nomatch hp⟩

/-! ## Single locks -/

theorem find?_replaced_of_ne {ls : List (String × FifoLock)} {key k : String} {l : FifoLock}
    (hk : k ≠ key) :
    (ls.map fun m => if m.1 = key then (key, l) else m).find? (fun m => m.1 = k) =
      ls.find? fun m => m.1 = k := by
  induction ls with
  | nil => rfl
  | cons p rest ih =>
    by_cases hp : p.1 = key
    · have hpk : p.1 ≠ k := fun e => hk (e.symm.trans hp)
      simp [hp, Ne.symm hk, ih]
    · by_cases hpk : p.1 = k
      · simp [hpk, hk]
      · simp [hp, hpk, ih]

theorem find?_replaced_self {ls : List (String × FifoLock)} {key : String} {l : FifoLock}
    (h : ls.any (fun m => m.1 = key) = true) :
    (ls.map fun m => if m.1 = key then (key, l) else m).find? (fun m => m.1 = key) =
      some (key, l) := by
  induction ls with
  | nil => cases h
  | cons p rest ih =>
    by_cases hp : p.1 = key
    · simp [hp]
    · rw [List.any_cons, decide_eq_false hp, Bool.false_or] at h
      rw [List.map_cons, if_neg hp, List.find?_cons_of_neg (by simpa using hp), ih h]

/-- The lock of a key is what was set last. -/
theorem lock_setLock (s : FifoLocks) (key k : String) (l : FifoLock) :
    (s.setLock key l).lock k = if k = key then l else s.lock k := by
  unfold setLock lock
  split
  next h =>
    by_cases hk : k = key
    · subst hk
      rw [find?_replaced_self h, if_pos rfl]
      rfl
    · rw [find?_replaced_of_ne hk, if_neg hk]
  next h =>
    by_cases hk : k = key
    · subst hk
      have hnone : s.locks.find? (fun m => m.1 = k) = none := by
        rw [List.find?_eq_none]
        intro m hm hmk
        exact h (List.any_eq_true.mpr ⟨m, hm, hmk⟩)
      rw [List.find?_append, hnone, if_pos rfl]
      simp
    · rw [List.find?_append, if_neg hk]
      simp [Ne.symm hk]

/-- A lock is among the locks unless it was never asked for. -/
theorem lock_mem (s : FifoLocks) (key : String) :
    s.lock key = ⟨none, []⟩ ∨ (key, s.lock key) ∈ s.locks := by
  unfold lock
  cases h : s.locks.find? fun l => l.1 = key with
  | none => exact .inl rfl
  | some p =>
    have hp : p.1 = key := by simpa using List.find?_some h
    right
    rw [← hp]
    exact List.mem_of_find?_eq_some h

theorem lock_of_mem {s : FifoLocks} (h : (s.locks.map (·.1)).Nodup) {p : String × FifoLock}
    (hp : p ∈ s.locks) : s.lock p.1 = p.2 := by
  unfold lock
  rw [(find?_eq_some_iff_mem h).mpr hp]
  rfl

theorem mem_setLock {s : FifoLocks} {key : String} {l : FifoLock} {p : String × FifoLock}
    (h : p ∈ (s.setLock key l).locks) : p = (key, l) ∨ p ∈ s.locks := by
  unfold setLock at h
  split at h
  next =>
    obtain ⟨q, hq, rfl⟩ := List.mem_map.mp h
    split
    next => exact .inl rfl
    next => exact .inr hq
  next =>
    rcases List.mem_append.mp h with h | h
    · exact .inr h
    · exact .inl (List.mem_singleton.mp h)

theorem keys_setLock {s : FifoLocks} (h : (s.locks.map (·.1)).Nodup) (key : String)
    (l : FifoLock) : ((s.setLock key l).locks.map (·.1)).Nodup := by
  unfold setLock
  split
  next =>
    have hsame : (s.locks.map fun m => if m.1 = key then (key, l) else m).map (·.1) =
        s.locks.map (·.1) := by
      rw [List.map_map]
      refine List.map_congr_left fun m _ => ?_
      by_cases hm : m.1 = key <;> simp [hm]
    rw [hsame]
    exact h
  next hno =>
    rw [List.map_append, List.nodup_append]
    refine ⟨h, by simp, fun a ha b hb hab => ?_⟩
    rw [List.map_singleton, List.mem_singleton] at hb
    obtain ⟨m, hm, rfl⟩ := List.mem_map.mp ha
    exact hno (List.any_eq_true.mpr ⟨m, hm, by simpa using hab.trans hb⟩)

theorem ending_setLock (s : FifoLocks) (key : String) (l : FifoLock) :
    (s.setLock key l).ending = s.ending := by
  unfold setLock
  split <;> rfl

/-! ## Orderly locks -/

namespace Orderly

variable {s : FifoLocks} {key k : String} {t : String}

/-- Setting a lock keeps the order when nobody waits for it in vain. -/
theorem setLock (h : s.Orderly) {l : FifoLock} (hl : l.holder = none → l.waiting = []) :
    (s.setLock key l).Orderly := by
  refine ⟨?_, keys_setLock h.keys key l, fun p hp => ?_⟩
  · rw [ending_setLock]
    exact h.patient
  · rcases mem_setLock hp with rfl | hp
    · exact hl
    · exact h.passed p hp

theorem waiting_eq_nil (h : s.Orderly) (hn : (s.lock key).holder = none) :
    (s.lock key).waiting = [] := by
  rcases s.lock_mem key with hk | hk
  · rw [hk]
  · exact h.passed _ hk hn

/-- The holder of a lock is the head of its queue. -/
theorem holder_eq_head? (h : s.Orderly) : (s.lock key).holder = (s.queue key).head? := by
  unfold queue
  cases hh : (s.lock key).holder with
  | none => rw [h.waiting_eq_nil hh]; rfl
  | some t => rfl

end Orderly

/-- The lock that is handed on to the first of those who wait. -/
theorem handOn_eq {s : FifoLocks} (h : s.ending = []) (key : String) (ts : List String) :
    s.handOn key ts = { s.setLock key ⟨ts.head?, ts.tail⟩ with
      entered := s.entered ++ ts.head?.toList } := by
  unfold handOn
  rw [h]
  cases ts <;> rfl

/-! ## Steps -/

section Steps

variable {s : FifoLocks} {key t : String}

/-- Who asks for a lock joins its queue. -/
theorem queue_hold (h : s.Orderly) (k : String) :
    (s.step (.hold t key)).queue k = if k = key then s.queue key ++ [t] else s.queue k := by
  unfold queue step
  simp only
  cases hh : (s.lock key).holder with
  | some u =>
    simp only [lock_setLock]
    by_cases hk : k = key
    · simp [hk]
    · simp [hk]
  | none =>
    -- Nobody holds the lock, so nobody waits for it, and the task is let in at once.
    have hw := h.waiting_eq_nil hh
    rw [hw, handOn_eq h.patient]
    have hl : ∀ x y, ({ s.setLock key x with entered := y } : FifoLocks).lock k =
        (s.setLock key x).lock k := fun _ _ => rfl
    rw [hl, lock_setLock]
    by_cases hk : k = key
    · simp [hk]
    · simp [hk]

theorem Orderly.hold (h : s.Orderly) : (s.step (.hold t key)).Orderly := by
  unfold step
  simp only
  cases hh : (s.lock key).holder with
  | some u => exact h.setLock fun hn => nomatch hn
  | none =>
    rw [h.waiting_eq_nil hh, handOn_eq h.patient]
    have hset : (s.setLock key ⟨some t, []⟩).Orderly := h.setLock fun _ => rfl
    exact ⟨hset.patient, hset.keys, hset.passed⟩

/-- The key of a lock that is held by nobody else. -/
theorem heldBy_eq (h : s.Orderly) (hheld : (s.lock key).holder = some t)
    (honly : ∀ k, (s.lock k).holder = some t → k = key) : s.heldBy t = some key := by
  unfold heldBy
  have hmem : (key, s.lock key) ∈ s.locks := by
    rcases s.lock_mem key with hk | hk
    · rw [hk] at hheld
      cases hheld
    · exact hk
  cases hf : s.locks.find? fun l => l.2.holder = some t with
  | none => simpa [hheld] using List.find?_eq_none.mp hf _ hmem
  | some p =>
    have hp : p.2.holder = some t := by simpa using List.find?_some hf
    -- Whichever lock was found, the task holds no other than this one.
    have hlock := lock_of_mem h.keys (List.mem_of_find?_eq_some hf)
    rw [Option.map_some, honly p.1 (by rw [hlock]; exact hp)]

/-- When the holder of a lock leaves, its queue moves up. -/
theorem queue_finish (h : s.Orderly) (hheld : (s.lock key).holder = some t)
    (honly : ∀ k, (s.lock k).holder = some t → k = key) (k : String) :
    (s.step (.finish t)).queue k = if k = key then (s.queue key).tail else s.queue k := by
  unfold queue step
  simp only [heldBy_eq h hheld honly]
  rw [handOn_eq h.patient]
  have hl : ∀ x y, ({ s.setLock key x with entered := y } : FifoLocks).lock k =
      (s.setLock key x).lock k := fun _ _ => rfl
  rw [hl, lock_setLock]
  by_cases hk : k = key
  · subst hk
    rw [if_pos rfl, if_pos rfl, hheld]
    cases (s.lock k).waiting <;> rfl
  · rw [if_neg hk, if_neg hk]

theorem Orderly.finish (h : s.Orderly) (hheld : (s.lock key).holder = some t)
    (honly : ∀ k, (s.lock k).holder = some t → k = key) : (s.step (.finish t)).Orderly := by
  unfold step
  simp only [heldBy_eq h hheld honly]
  rw [handOn_eq h.patient]
  have hset : (s.setLock key ⟨(s.lock key).waiting.head?, (s.lock key).waiting.tail⟩).Orderly := by
    refine h.setLock fun hn => ?_
    cases hw : (s.lock key).waiting with
    | nil => rfl
    | cons u rest =>
      rw [hw] at hn
      cases hn
  exact ⟨hset.patient, hset.keys, hset.passed⟩

end Steps

end FifoLocks

end Custody
