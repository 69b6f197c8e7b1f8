/-!
# Locks that are served in order

One lock per key. A task that asks for a lock gets it when nobody has it, and waits in line
otherwise; when the holder leaves, however it leaves, the first in line follows. A task that was
told to end before its turn came still takes its turn, and leaves at once.

> `enter_entered`: nobody who got in is forgotten.
-/

namespace Custody

/-- The lock of one key: who holds it, and who waits for it in which order. -/
structure FifoLock where
  holder : Option String
  waiting : List String
deriving DecidableEq, Repr, Inhabited

/-- All locks. `entered` are the tasks that got in so far, in order; `ending` those that will leave
as soon as they are in. -/
structure FifoLocks where
  locks : List (String × FifoLock)
  entered : List String
  ending : List String
deriving DecidableEq, Repr, Inhabited

/-- What is done to a task. -/
inductive LockStep where
  | hold (task key : String)
  | finish (task : String)
  | cancel (task : String)
deriving DecidableEq, Repr

namespace FifoLocks

/-- No task has asked for anything. -/
def empty : FifoLocks := ⟨[], [], []⟩

/-- The lock of a key; one that was never asked for is free. -/
def lock (s : FifoLocks) (key : String) : FifoLock :=
  ((s.locks.find? fun l => l.1 = key).map (·.2)).getD ⟨none, []⟩

/-- The locks with the one of a key set. -/
def setLock (s : FifoLocks) (key : String) (l : FifoLock) : FifoLocks :=
  if s.locks.any fun m => m.1 = key then
    { s with locks := s.locks.map fun m => if m.1 = key then (key, l) else m }
  else { s with locks := s.locks ++ [(key, l)] }

/-- Who holds a free lock that tasks wait for, who waits on, and who got in on the way: those that
will leave at once are passed over. -/
def letIn (ending : List String) : List String → FifoLock × List String
  | [] => (⟨none, []⟩, [])
  | t :: rest =>
    if t ∈ ending then
      let (l, got) := letIn ending rest
      (l, t :: got)
    else (⟨some t, rest⟩, [t])

/-- The state once a free lock has been handed on. -/
def handOn (s : FifoLocks) (key : String) (waiting : List String) : FifoLocks :=
  let (l, got) := letIn s.ending waiting
  { s.setLock key l with entered := s.entered ++ got }

/-- The key whose lock a task holds. -/
def heldBy (s : FifoLocks) (task : String) : Option String :=
  (s.locks.find? fun l => l.2.holder = some task).map (·.1)

/-- The key whose lock a task waits for. -/
def awaitedBy (s : FifoLocks) (task : String) : Option String :=
  (s.locks.find? fun l => l.2.waiting.contains task).map (·.1)

/-- The state after a step, once nothing moves any more. -/
def step (s : FifoLocks) : LockStep → FifoLocks
  | .hold task key =>
    let l := s.lock key
    match l.holder with
    | some _ => s.setLock key { l with waiting := l.waiting ++ [task] }
    | none => s.handOn key (l.waiting ++ [task])
  | .finish task =>
    match s.heldBy task with
    | some key => s.handOn key (s.lock key).waiting
    | none =>
      match s.awaitedBy task with
      | some _ => { s with ending := task :: s.ending }
      | none => s
  | .cancel task =>
    match s.heldBy task with
    | some key => s.handOn key (s.lock key).waiting
    | none =>
      match s.awaitedBy task with
      | some key =>
        let l := s.lock key
        s.setLock key { l with waiting := l.waiting.erase task }
      | none => s

/-- The tasks inside, in alphabetical order. -/
def inside (s : FifoLocks) : List String :=
  (s.locks.filterMap fun l => l.2.holder).mergeSort fun a b => a ≤ b

/-- Whether a key is locked. -/
def isLocked (s : FifoLocks) (key : String) : Bool := (s.lock key).holder.isSome

/-- Setting a lock lets nobody in. -/
theorem setLock_entered (s : FifoLocks) (key : String) (l : FifoLock) :
    (s.setLock key l).entered = s.entered := by
  unfold setLock; split <;> rfl

/-- Nobody who got in is forgotten. -/
theorem enter_entered (s : FifoLocks) (a : LockStep) : ∃ ts, (s.step a).entered = s.entered ++ ts := by
  have keep : ∃ ts : List String, s.entered = s.entered ++ ts := ⟨[], by simp⟩
  cases a with
  | hold task key =>
    simp only [step]
    split
    · exact ⟨[], by simp [setLock_entered]⟩
    · exact ⟨_, rfl⟩
  | finish task =>
    simp only [step]
    split
    · exact ⟨_, rfl⟩
    · split
      · exact keep
      · exact keep
  | cancel task =>
    simp only [step]
    split
    · exact ⟨_, rfl⟩
    · split
      · exact ⟨[], by simp [setLock_entered]⟩
      · exact keep

end FifoLocks

end Custody
