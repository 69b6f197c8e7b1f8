import Mathlib.Data.List.Induction
import Mathlib.Data.List.Nodup
import Custody.Proofs.Queue

/-!
# Locks are fair

What tasks do to the locks, told from their side: a task asks for a key, it gets in or waits, and
it stays until it comes to an end or is cancelled. A task that asks for a second key while it stays
for a first one counts as two tasks here. Whatever the tasks do, the line of a key is its queue: those
who asked and have not left, in the order in which they asked, and the first of them is inside.

> `queue_cancel`: who leaves, from whichever place, leaves the queue without him and no other queue
> changed; `entered_of_waiting`, `entered_of_inside`: only behind the holder somebody gets in.
> `Possible.account`: after any steps the queues are the lines.
> `locks_fair`: one task at a time is inside, in the order in which they asked, nobody waits for a key
> that is free, and the steps on other keys make no difference.
-/

namespace Custody

/-- Who leaves by a step. -/
def LockStep.leaver? : LockStep → Option String
  | .hold .. => none
  | .finish t | .cancel t => some t

namespace FifoLocks

/-! ## Leaving -/

section Leaving

variable {s : FifoLocks} {key k t : String}

theorem Orderly.waiting_eq_tail (h : s.Orderly) : (s.lock key).waiting = (s.queue key).tail := by
  unfold queue
  cases hh : (s.lock key).holder with
  | none => rw [h.waiting_eq_nil hh]; rfl
  | some t => rfl

/-- A lock is told by its queue. -/
theorem Orderly.lock_eq (h : s.Orderly) :
    s.lock key = ⟨(s.queue key).head?, (s.queue key).tail⟩ := by
  rw [← h.holder_eq_head?, ← h.waiting_eq_tail]

theorem heldBy_eq_none (h : s.Orderly) (hno : ∀ k, (s.lock k).holder ≠ some t) :
    s.heldBy t = none := by
  unfold heldBy
  rw [Option.map_eq_none_iff, List.find?_eq_none]
  intro p hp hheld
  exact hno p.1 (by rw [lock_of_mem h.keys hp]; simpa using hheld)

/-- The key of a lock that is waited for by a task that waits for no other. -/
theorem awaitedBy_eq (h : s.Orderly) (hwaits : t ∈ (s.lock key).waiting)
    (honly : ∀ k, t ∈ (s.lock k).waiting → k = key) : s.awaitedBy t = some key := by
  unfold awaitedBy
  have hmem : (key, s.lock key) ∈ s.locks := by
    rcases s.lock_mem key with hk | hk
    · rw [hk] at hwaits
      cases hwaits
    · exact hk
  cases hf : s.locks.find? fun l => l.2.waiting.contains t with
  | none => simpa [hwaits] using List.find?_eq_none.mp hf _ hmem
  | some p =>
    have hp : t ∈ p.2.waiting := by simpa using List.find?_some hf
    have hlock := lock_of_mem h.keys (List.mem_of_find?_eq_some hf)
    rw [Option.map_some, honly p.1 (by rw [hlock]; exact hp)]

theorem awaitedBy_eq_none (h : s.Orderly) (hno : ∀ k, t ∉ (s.lock k).waiting) :
    s.awaitedBy t = none := by
  unfold awaitedBy
  rw [Option.map_eq_none_iff, List.find?_eq_none]
  intro p hp hwaits
  exact hno p.1 (by rw [lock_of_mem h.keys hp]; simpa using hwaits)

/-- Every task is in one queue at most, and once. -/
structure Single (s : FifoLocks) : Prop where
  nodup : ∀ key, (s.queue key).Nodup
  unique : ∀ {t k key}, t ∈ s.queue k → t ∈ s.queue key → k = key

/-- Where a task is that leaves: at the head of a queue, behind it, or nowhere. -/
theorem Single.place (h : s.Orderly) (hs : s.Single) (t : String) :
    (∃ key, s.heldBy t = some key ∧ (s.queue key).head? = some t) ∨
    (∃ key, s.heldBy t = none ∧ s.awaitedBy t = some key ∧ t ∈ (s.queue key).tail ∧
      (s.queue key).head? ≠ some t) ∨
    (s.heldBy t = none ∧ s.awaitedBy t = none ∧ ∀ key, t ∉ s.queue key) := by
  have hhead : ∀ {k}, (s.lock k).holder = some t → t ∈ s.queue k := fun hk =>
    List.mem_of_mem_head? (h.holder_eq_head?.symm.trans hk)
  have htail : ∀ {k}, t ∈ (s.lock k).waiting → t ∈ s.queue k := fun hk =>
    List.mem_append_right _ hk
  by_cases hin : ∃ key, (s.lock key).holder = some t
  · obtain ⟨key, hkey⟩ := hin
    exact .inl ⟨key, heldBy_eq h hkey fun k hk => hs.unique (hhead hk) (hhead hkey),
      h.holder_eq_head?.symm.trans hkey⟩
  · have hno : ∀ k, (s.lock k).holder ≠ some t := fun k hk => hin ⟨k, hk⟩
    by_cases hwaits : ∃ key, t ∈ (s.lock key).waiting
    · obtain ⟨key, hkey⟩ := hwaits
      refine .inr (.inl ⟨key, heldBy_eq_none h hno,
        awaitedBy_eq h hkey fun k hk => hs.unique (htail hk) (htail hkey), ?_, ?_⟩)
      · rwa [← h.waiting_eq_tail]
      · rw [← h.holder_eq_head?]
        exact hno key
    · refine .inr (.inr ⟨heldBy_eq_none h hno,
        awaitedBy_eq_none h fun k hk => hwaits ⟨k, hk⟩, fun k hk => ?_⟩)
      rcases List.mem_append.mp hk with hk | hk
      · exact hno k (by simpa using hk)
      · exact hwaits ⟨k, hk⟩

/-- Coming to an end and being cancelled are one thing for who is inside. -/
theorem step_finish_of_held (hheld : s.heldBy t = some key) :
    s.step (.finish t) = s.step (.cancel t) := by
  simp only [step, hheld]

theorem step_cancel_of_held (h : s.Orderly) (hheld : s.heldBy t = some key) :
    s.step (.cancel t) =
      { s.setLock key ⟨(s.queue key).tail.head?, (s.queue key).tail.tail⟩ with
        entered := s.entered ++ (s.queue key).tail.head?.toList } := by
  simp only [step, hheld]
  rw [handOn_eq h.patient, h.waiting_eq_tail]

theorem step_cancel_of_awaited (h : s.Orderly) (hheld : s.heldBy t = none)
    (hwaits : s.awaitedBy t = some key) :
    s.step (.cancel t) =
      s.setLock key ⟨(s.queue key).head?, (s.queue key).tail.erase t⟩ := by
  simp only [step, hheld, hwaits]
  rw [h.lock_eq]

theorem step_cancel_of_absent (hheld : s.heldBy t = none) (hwaits : s.awaitedBy t = none) :
    s.step (.cancel t) = s := by
  simp only [step, hheld, hwaits]

theorem queue_setLock (s : FifoLocks) (key k : String) (l : FifoLock) :
    (s.setLock key l).queue k = if k = key then l.holder.toList ++ l.waiting else s.queue k := by
  unfold queue
  rw [lock_setLock]
  split <;> rfl

theorem queue_withEntered (s : FifoLocks) (ts : List String) (k : String) :
    ({ s with entered := ts } : FifoLocks).queue k = s.queue k := rfl

/-- Who leaves, leaves the queues without him. -/
theorem queue_cancel (h : s.Orderly) (hs : s.Single) (t k : String) :
    (s.step (.cancel t)).queue k = (s.queue k).erase t := by
  have hother : ∀ {key}, t ∈ s.queue key → k ≠ key → (s.queue k).erase t = s.queue k :=
    fun hmem hk => List.erase_of_not_mem fun hk' => hk (hs.unique hk' hmem)
  rcases hs.place h t with ⟨key, hheld, hhead⟩ | ⟨key, hheld, hwaits, htail, hhead⟩ |
    ⟨hheld, hwaits, hnone⟩
  · rw [step_cancel_of_held h hheld, queue_withEntered, queue_setLock]
    by_cases hk : k = key
    · subst hk
      obtain ⟨rest, hrest⟩ : ∃ rest, s.queue k = t :: rest := List.head?_eq_some_iff.mp hhead
      rw [if_pos rfl, hrest, List.erase_cons_head]
      cases rest <;> rfl
    · rw [if_neg hk, hother (List.mem_of_mem_head? hhead) hk]
  · rw [step_cancel_of_awaited h hheld hwaits, queue_setLock]
    by_cases hk : k = key
    · subst hk
      rw [if_pos rfl]
      cases hq : s.queue k with
      | nil => rfl
      | cons u rest =>
        have hut : u ≠ t := fun e => hhead (by rw [hq, e]; rfl)
        rw [List.erase_cons_tail (by simpa using hut)]
        rfl
    · rw [if_neg hk, hother (List.mem_of_mem_tail htail) hk]
  · rw [step_cancel_of_absent hheld hwaits, List.erase_of_not_mem (hnone k)]

theorem Orderly.cancel (h : s.Orderly) (hs : s.Single) (t : String) :
    (s.step (.cancel t)).Orderly := by
  rcases hs.place h t with ⟨key, hheld, -⟩ | ⟨key, hheld, hwaits, htail, -⟩ | ⟨hheld, hwaits, -⟩
  · rw [step_cancel_of_held h hheld]
    have hset : (s.setLock key ⟨(s.queue key).tail.head?, (s.queue key).tail.tail⟩).Orderly := by
      refine h.setLock fun hn => ?_
      rw [List.head?_eq_none_iff.mp hn]
      rfl
    exact ⟨hset.patient, hset.keys, hset.passed⟩
  · rw [step_cancel_of_awaited h hheld hwaits]
    refine h.setLock fun hn => ?_
    rw [List.head?_eq_none_iff.mp hn] at htail
    cases htail
  · rw [step_cancel_of_absent hheld hwaits]
    exact h

/-! ## Getting in -/

/-- Who asks for a free lock gets in at once, and nobody else does. -/
theorem entered_hold (h : s.Orderly) :
    (s.step (.hold t key)).entered = s.entered ++ if s.queue key = [] then [t] else [] := by
  simp only [step]
  cases hh : (s.lock key).holder with
  | some u =>
    have hne : s.queue key ≠ [] := by
      unfold queue
      rw [hh]
      exact List.cons_ne_nil _ _
    simp only [setLock_entered, if_neg hne, List.append_nil]
  | none =>
    have hnil : s.queue key = [] := by
      unfold queue
      rw [hh, h.waiting_eq_nil hh]
      rfl
    rw [h.waiting_eq_nil hh, handOn_eq h.patient, if_pos hnil]
    rfl

/-- When the holder leaves, the next in line gets in. -/
theorem entered_of_inside (h : s.Orderly) (hs : s.Single)
    (hhead : (s.queue key).head? = some t) :
    (s.step (.cancel t)).entered = s.entered ++ (s.queue key).tail.head?.toList := by
  have hheld : s.heldBy t = some key :=
    heldBy_eq h (h.holder_eq_head?.trans hhead) fun k hk =>
      hs.unique (List.mem_of_mem_head? (h.holder_eq_head?.symm.trans hk))
        (List.mem_of_mem_head? hhead)
  rw [step_cancel_of_held h hheld]

/-- When somebody else leaves, nobody gets in. -/
theorem entered_of_waiting (h : s.Orderly) (hs : s.Single)
    (hno : ∀ key, (s.queue key).head? ≠ some t) : (s.step (.cancel t)).entered = s.entered := by
  rcases hs.place h t with ⟨key, -, hhead⟩ | ⟨key, hheld, hwaits, -, -⟩ | ⟨hheld, hwaits, -⟩
  · exact absurd hhead (hno key)
  · rw [step_cancel_of_awaited h hheld hwaits, setLock_entered]
  · rw [step_cancel_of_absent hheld hwaits]

end Leaving

/-! ## What the tasks did -/

/-- The locks after some steps. -/
def run (steps : List LockStep) : FifoLocks := steps.foldl step empty

/-- A task asked for a key after the steps `before` and has not left since. -/
def Stays (steps before : List LockStep) (t key : String) : Prop :=
  ∃ after, steps = before ++ .hold t key :: after ∧ ∀ a ∈ after, a.leaver? ≠ some t

/-- Who got in since the steps `before`. -/
def got (steps before : List LockStep) : List String :=
  (run steps).entered.drop (run before).entered.length

/-- A task got in for a key and has not left since. -/
def Inside (steps : List LockStep) (t key : String) : Prop :=
  ∃ before, Stays steps before t key ∧ t ∈ got steps before

/-- A task asked for a key, and has neither got in nor left since. -/
def Waits (steps : List LockStep) (t key : String) : Prop :=
  ∃ before, Stays steps before t key ∧ t ∉ got steps before

/-- The line of a key: who asked for it and has not left, in the order in which they asked. -/
def line (key : String) (steps : List LockStep) : List String :=
  steps.foldl (fun ts a =>
    match a with
    | .hold t k => if k = key then ts ++ [t] else ts
    | .finish t | .cancel t => ts.erase t) []

/-- What can come next: a task asks that stands in no line, a task comes to an end that is inside,
or any task is cancelled. -/
def Allowed (steps : List LockStep) : LockStep → Prop
  | .hold t _ => ∀ key, t ∉ line key steps
  | .finish t => ∃ key, Inside steps t key
  | .cancel _ => True

/-- Steps that tasks can take one after the other. -/
def Possible (steps : List LockStep) : Prop := InTurn Allowed steps

/-! ## One step more -/

section Concat

variable {steps before : List LockStep} {a : LockStep} {t u key : String}

theorem run_concat (steps : List LockStep) (a : LockStep) :
    run (steps ++ [a]) = (run steps).step a := by
  unfold run
  rw [List.foldl_concat]

theorem line_concat_hold (steps : List LockStep) (u k key : String) :
    line key (steps ++ [.hold u k]) = line key steps ++ if k = key then [u] else [] := by
  unfold line
  rw [List.foldl_concat]
  by_cases hk : k = key <;> simp [hk]

theorem line_concat_leave (ha : a.leaver? = some u) (key : String) :
    line key (steps ++ [a]) = (line key steps).erase u := by
  unfold line
  rw [List.foldl_concat]
  cases a with
  | hold t k => cases ha
  | finish t => cases ha; rfl
  | cancel t => cases ha; rfl

theorem mem_line_hold {k : String} : t ∈ line k (steps ++ [.hold u key]) ↔
    t ∈ line k steps ∨ (t = u ∧ k = key) := by
  rw [line_concat_hold, List.mem_append]
  by_cases hk : key = k
  · simp [hk]
  · simp [hk, Ne.symm hk]

theorem possible_concat : Possible (steps ++ [a]) ↔ Possible steps ∧ Allowed steps a := inTurn_concat

theorem Possible.then (h : Possible steps) (ha : Allowed steps a) : Possible (steps ++ [a]) :=
  possible_concat.mpr ⟨h, ha⟩

/-- A task stays when it has just asked, or stayed and does not leave now. -/
theorem stays_concat : Stays (steps ++ [a]) before t key ↔
    (before = steps ∧ a = .hold t key) ∨ (Stays steps before t key ∧ a.leaver? ≠ some t) := by
  constructor
  · rintro ⟨after, hsteps, hafter⟩
    rcases List.eq_nil_or_concat after with rfl | ⟨rest, c, rfl⟩
    · obtain ⟨rfl, ha⟩ := List.append_inj' hsteps rfl
      cases ha
      exact .inl ⟨rfl, rfl⟩
    · rw [List.concat_eq_append] at hsteps hafter
      rw [← List.cons_append, ← List.append_assoc] at hsteps
      obtain ⟨hprev, hc⟩ := List.append_inj' hsteps rfl
      cases hc
      exact .inr ⟨⟨rest, hprev, fun b hb => hafter b (List.mem_append_left _ hb)⟩,
        hafter a (by simp)⟩
  · rintro (⟨rfl, rfl⟩ | ⟨⟨after, rfl, hafter⟩, ha⟩)
    · exact ⟨[], rfl, fun _ hb => nomatch hb⟩
    · refine ⟨after ++ [a], by simp, fun b hb => ?_⟩
      rcases List.mem_append.mp hb with hb | hb
      · exact hafter b hb
      · rwa [List.mem_singleton.mp hb]

/-- Who is cancelled stays no longer, and everybody else does. -/
theorem stays_cancel : Stays (steps ++ [.cancel u]) before t key ↔
    Stays steps before t key ∧ t ≠ u := by
  rw [stays_concat]
  constructor
  · rintro (⟨-, hb⟩ | ⟨hb, ht⟩)
    · cases hb
    · exact ⟨hb, fun htu => ht (htu ▸ rfl)⟩
  · rintro ⟨hb, ht⟩
    exact .inr ⟨hb, fun hu => ht (Option.some.inj hu).symm⟩

theorem Stays.length_lt (h : Stays steps before t key) : before.length < steps.length := by
  obtain ⟨after, rfl, -⟩ := h
  simp

theorem Stays.entered_le (h : Stays steps before t key) :
    (run before).entered.length ≤ (run steps).entered.length := by
  obtain ⟨after, rfl, -⟩ := h
  generalize (.hold t key :: after : List LockStep) = rest
  induction rest using List.reverseRecOn with
  | nil => simp
  | append_singleton rest a ih =>
    rw [← List.append_assoc, run_concat]
    obtain ⟨ts, hts⟩ := enter_entered (run (before ++ rest)) a
    rw [hts, List.length_append]
    omega

/-- Who gets in by one step more. -/
theorem got_concat {ts : List String} (h : (run before).entered.length ≤ (run steps).entered.length)
    (hts : ((run steps).step a).entered = (run steps).entered ++ ts) :
    got (steps ++ [a]) before = got steps before ++ ts := by
  unfold got
  rw [run_concat, hts, List.drop_append_of_le_length h]

theorem got_self (steps : List LockStep) : got steps steps = [] := List.drop_length

end Concat

/-! ## The queues are the lines -/

/-- What the steps come to: every task stands in one line at most, the queues are the lines, and the
first in line is the one that got in. -/
structure Account (steps : List LockStep) : Prop where
  nodup : ∀ key, (line key steps).Nodup
  unique : ∀ {t k key}, t ∈ line k steps → t ∈ line key steps → k = key
  orderly : (run steps).Orderly
  queue : ∀ key, (run steps).queue key = line key steps
  stands : ∀ {t key}, t ∈ line key steps ↔ ∃ before, Stays steps before t key
  inside : ∀ {before t key}, Stays steps before t key →
    (t ∈ got steps before ↔ (line key steps).head? = some t)

namespace Account

variable {steps before : List LockStep} {a : LockStep} {t u key k : String}

theorem single (h : Account steps) : (run steps).Single :=
  ⟨fun key => by rw [h.queue]; exact h.nodup key,
    fun hk hkey => h.unique (by rwa [h.queue] at hk) (by rwa [h.queue] at hkey)⟩

theorem nil : Account [] := by
  have hstays : ∀ {before t key}, ¬ Stays [] before t key := by
    rintro before t key ⟨after, hafter, -⟩
    cases before <;> cases hafter
  refine ⟨fun key => List.nodup_nil, fun hk => ?_, orderly_empty, fun key => rfl, fun {t key} => ?_,
    fun hs => absurd hs hstays⟩
  · cases hk
  · constructor
    · intro ht
      cases ht
    · rintro ⟨b, hb⟩
      exact absurd hb hstays

/-- Who stands in a line when another task asks got in if he is the first. -/
theorem inside_hold (h : Account steps) (hfree : ∀ k, u ∉ line k steps)
    (hs : Stays (steps ++ [.hold u key]) before t k) :
    t ∈ got (steps ++ [.hold u key]) before ↔
      (line k (steps ++ [.hold u key])).head? = some t := by
  have hentered : ((run steps).step (.hold u key)).entered =
      (run steps).entered ++ if line key steps = [] then [u] else [] := by
    rw [entered_hold h.orderly, h.queue]
  rcases stays_concat.mp hs with ⟨rfl, ha⟩ | ⟨hs, -⟩
  · -- The task that has just asked gets in where nobody stands.
    cases ha
    rw [got_concat (Nat.le_refl _) hentered, got_self, line_concat_hold, List.nil_append]
    cases hq : line key before with
    | nil => simp
    | cons w rest =>
      have hw : w ≠ t := fun hwt => hfree key (hq ▸ hwt ▸ List.mem_cons_self)
      simp [hw]
  · -- Whoever stood in a line before keeps his place.
    have ht := h.stands.mpr ⟨before, hs⟩
    rw [got_concat hs.entered_le hentered, List.mem_append, h.inside hs, line_concat_hold,
      List.head?_append_of_ne_nil _ (List.ne_nil_of_mem ht)]
    constructor
    · rintro (hin | hin)
      · exact hin
      · split at hin
        · exact absurd (List.mem_singleton.mp hin) fun htu => hfree k (htu ▸ ht)
        · cases hin
    · exact Or.inl

theorem hold (h : Account steps) (hfree : ∀ k, u ∉ line k steps) :
    Account (steps ++ [.hold u key]) := by
  -- The task is put behind the others of one line, and stood in none before.
  constructor
  case nodup =>
    intro k
    rw [line_concat_hold, List.nodup_append]
    refine ⟨h.nodup k, by split <;> simp, fun x hx y hy hxy => ?_⟩
    have hy : y = u := by
      split at hy
      · exact List.mem_singleton.mp hy
      · cases hy
    exact hfree k (hy ▸ hxy ▸ hx)
  case unique =>
    intro t k k' hk hk'
    rcases mem_line_hold.mp hk with hk | ⟨rfl, rfl⟩
    · rcases mem_line_hold.mp hk' with hk' | ⟨htu, -⟩
      · exact h.unique hk hk'
      · exact absurd hk (htu ▸ hfree k)
    · rcases mem_line_hold.mp hk' with hk' | ⟨-, rfl⟩
      · exact absurd hk' (hfree _)
      · rfl
  case orderly =>
    rw [run_concat]
    exact h.orderly.hold
  case queue =>
    intro k
    rw [run_concat, queue_hold h.orderly, line_concat_hold, h.queue, h.queue]
    by_cases hk : k = key
    · simp [hk]
    · simp [hk, Ne.symm hk]
  case stands =>
    intro t k
    rw [mem_line_hold]
    constructor
    · rintro (ht | ⟨rfl, rfl⟩)
      · obtain ⟨b, hb⟩ := h.stands.mp ht
        exact ⟨b, stays_concat.mpr (.inr ⟨hb, nofun⟩)⟩
      · exact ⟨steps, stays_concat.mpr (.inl ⟨rfl, rfl⟩)⟩
    · rintro ⟨b, hb⟩
      rcases stays_concat.mp hb with ⟨-, hb⟩ | ⟨hb, -⟩
      · cases hb
        exact .inr ⟨rfl, rfl⟩
      · exact .inl (h.stands.mpr ⟨b, hb⟩)
  case inside => exact h.inside_hold hfree

/-- Who goes on standing in a line when another task is cancelled got in if he is the first now. -/
theorem inside_cancel (h : Account steps) (hs : Stays (steps ++ [.cancel u]) before t k) :
    t ∈ got (steps ++ [.cancel u]) before ↔ (line k (steps ++ [.cancel u])).head? = some t := by
  obtain ⟨hs, htu⟩ := stays_cancel.mp hs
  have ht := h.stands.mpr ⟨before, hs⟩
  rw [line_concat_leave rfl]
  by_cases hhead : ∃ key, (line key steps).head? = some u
  · -- The next in that line gets in.
    obtain ⟨key, hkey⟩ := hhead
    have hentered := entered_of_inside h.orderly h.single ((congrArg _ (h.queue key)).trans hkey)
    rw [h.queue] at hentered
    rw [got_concat hs.entered_le hentered, List.mem_append, h.inside hs]
    by_cases hk : k = key
    · subst hk
      obtain ⟨rest, hrest⟩ := List.head?_eq_some_iff.mp hkey
      rw [hrest, List.erase_cons_head]
      simp [Ne.symm htu]
    · have hu : u ∉ line k steps := fun hu =>
        hk (h.unique hu (List.mem_of_mem_head? hkey))
      have hnext : t ∉ (line key steps).tail.head?.toList := fun hin =>
        hk (h.unique ht (List.mem_of_mem_tail
          (List.mem_of_mem_head? (by simpa using hin))))
      rw [List.erase_of_not_mem hu]
      simp only [hnext, or_false]
  · have hno : ∀ key, ((run steps).queue key).head? ≠ some u := fun key hkey =>
      hhead ⟨key, by rwa [h.queue] at hkey⟩
    have hentered := entered_of_waiting h.orderly h.single hno
    rw [← List.append_nil (run steps).entered] at hentered
    rw [got_concat hs.entered_le hentered, List.append_nil, h.inside hs]
    -- The head of the line is another task, and stays it.
    cases hq : line k steps with
    | nil => rw [hq] at ht; cases ht
    | cons w rest =>
      have hw : w ≠ u := fun hwu => hhead ⟨k, by rw [hq, hwu]; rfl⟩
      rw [List.erase_cons_tail (by simpa using hw)]
      simp

theorem cancel (h : Account steps) (u : String) : Account (steps ++ [.cancel u]) := by
  have hline : ∀ key, line key (steps ++ [.cancel u]) = (line key steps).erase u :=
    line_concat_leave rfl
  have hmem : ∀ {t k}, t ∈ line k (steps ++ [.cancel u]) ↔ t ≠ u ∧ t ∈ line k steps := by
    intro t k
    rw [hline, (h.nodup k).mem_erase_iff]
  constructor
  case nodup =>
    intro k
    rw [hline]
    exact (h.nodup k).erase u
  case unique => exact fun hk hk' => h.unique (hmem.mp hk).2 (hmem.mp hk').2
  case orderly =>
    rw [run_concat]
    exact h.orderly.cancel h.single u
  case queue =>
    intro k
    rw [run_concat, queue_cancel h.orderly h.single, hline, h.queue]
  case stands =>
    intro t k
    rw [hmem, h.stands]
    constructor
    · rintro ⟨ht, b, hb⟩
      exact ⟨b, stays_cancel.mpr ⟨hb, ht⟩⟩
    · rintro ⟨b, hb⟩
      exact ⟨(stays_cancel.mp hb).2, b, (stays_cancel.mp hb).1⟩
  case inside => exact h.inside_cancel

theorem heldBy_of_inside (h : Account steps) (hin : Inside steps t key) :
    (run steps).heldBy t = some key := by
  obtain ⟨before, hs, hgot⟩ := hin
  have hhead := (h.inside hs).mp hgot
  rw [← h.queue] at hhead
  exact heldBy_eq h.orderly (h.orderly.holder_eq_head?.trans hhead) fun k hk =>
    h.single.unique (List.mem_of_mem_head? (h.orderly.holder_eq_head?.symm.trans hk))
      (List.mem_of_mem_head? hhead)

/-- Who is inside leaves in the same way, however he leaves. -/
theorem finish (h : Account steps) (hin : Inside steps u key) : Account (steps ++ [.finish u]) := by
  have hc := h.cancel u
  have hrun : run (steps ++ [.finish u]) = run (steps ++ [.cancel u]) := by
    rw [run_concat, run_concat, step_finish_of_held (h.heldBy_of_inside hin)]
  have hline : ∀ key, line key (steps ++ [.finish u]) = line key (steps ++ [.cancel u]) := by
    intro key
    rw [line_concat_leave (u := u) rfl, line_concat_leave (u := u) rfl]
  have hstays : ∀ {before t key}, Stays (steps ++ [.finish u]) before t key ↔
      Stays (steps ++ [.cancel u]) before t key := by
    intro before t key
    rw [stays_concat, stays_concat]
    simp [LockStep.leaver?]
  -- The same lines, queues and stays: all is known from a cancellation.
  constructor
  case nodup =>
    intro k
    rw [hline]
    exact hc.nodup k
  case unique =>
    intro t k k' hk hk'
    rw [hline] at hk hk'
    exact hc.unique hk hk'
  case orderly =>
    rw [hrun]
    exact hc.orderly
  case queue =>
    intro k
    rw [hrun, hline]
    exact hc.queue k
  case stands =>
    intro t k
    rw [hline, hc.stands]
    exact exists_congr fun b => hstays.symm
  case inside =>
    intro before t k hs
    unfold got
    rw [hrun, hline]
    exact hc.inside (hstays.mp hs)

end Account

/-- After any steps that can be taken the queues are the lines. -/
theorem Possible.account {steps : List LockStep} (h : Possible steps) : Account steps := by
  induction steps using List.reverseRecOn with
  | nil => exact .nil
  | append_singleton steps a ih =>
    obtain ⟨hsteps, ha⟩ := possible_concat.mp h
    cases a with
    | hold t key => exact (ih hsteps).hold ha
    | finish t =>
      obtain ⟨key, hin⟩ := ha
      exact (ih hsteps).finish hin
    | cancel t => exact (ih hsteps).cancel t

/-! ## Who is inside and who waits -/

section Standing

variable {steps : List LockStep} {t u key : String}

/-- Inside is who stands first. -/
theorem Account.inside_iff (h : Account steps) :
    Inside steps t key ↔ (line key steps).head? = some t := by
  constructor
  · rintro ⟨before, hs, hgot⟩
    exact (h.inside hs).mp hgot
  · intro hhead
    obtain ⟨before, hs⟩ := h.stands.mp (List.mem_of_mem_head? hhead)
    exact ⟨before, hs, (h.inside hs).mpr hhead⟩

/-- Everybody behind him waits. -/
theorem Account.waits_iff (h : Account steps) :
    Waits steps t key ↔ t ∈ (line key steps).tail := by
  have hline : ∀ {w rest}, line key steps = w :: rest → w ∉ rest := fun hq =>
    (List.nodup_cons.mp (hq ▸ h.nodup key)).1
  constructor
  · rintro ⟨before, hs, hgot⟩
    have ht := h.stands.mpr ⟨before, hs⟩
    rw [h.inside hs] at hgot
    cases hq : line key steps with
    | nil => rw [hq] at ht; cases ht
    | cons w rest =>
      rw [hq] at ht hgot
      exact (List.mem_cons.mp ht).resolve_left fun htw => hgot (htw ▸ rfl)
  · intro ht
    obtain ⟨before, hs⟩ := h.stands.mp (List.mem_of_mem_tail ht)
    refine ⟨before, hs, fun hgot => ?_⟩
    obtain ⟨rest, hq⟩ := List.head?_eq_some_iff.mp ((h.inside hs).mp hgot)
    rw [hq] at ht
    exact hline hq ht

theorem Account.isLocked_eq (h : Account steps) (key : String) :
    (run steps).isLocked key = (line key steps).head?.isSome := by
  unfold isLocked
  rw [h.orderly.holder_eq_head?, h.queue]

theorem Account.mem_inside (h : Account steps) :
    t ∈ (run steps).inside ↔ ∃ key, Inside steps t key := by
  unfold FifoLocks.inside
  rw [List.mem_mergeSort, List.mem_filterMap]
  constructor
  · rintro ⟨p, hp, hheld⟩
    refine ⟨p.1, h.inside_iff.mpr ?_⟩
    rw [← h.queue, ← h.orderly.holder_eq_head?, lock_of_mem h.orderly.keys hp]
    exact hheld
  · rintro ⟨key, hin⟩
    have hheld : ((run steps).lock key).holder = some t := by
      rw [h.orderly.holder_eq_head?, h.queue]
      exact h.inside_iff.mp hin
    rcases (run steps).lock_mem key with hk | hk
    · rw [hk] at hheld
      cases hheld
    · exact ⟨_, hk, hheld⟩

/-- Between two askings a task has left. -/
theorem Possible.asked_once {k : String} {b c : List LockStep} (h : Possible steps)
    (hb : Stays steps b t key) (hc : Stays steps c t k) : b = c := by
  induction steps using List.reverseRecOn with
  | nil => exact absurd hb.length_lt (Nat.not_lt_zero _)
  | append_singleton steps a ih =>
    obtain ⟨hsteps, ha⟩ := possible_concat.mp h
    have hold : ∀ {d k k'}, a = .hold t k → ¬ Stays steps d t k' := by
      rintro d k k' rfl hd
      exact ha k' (hsteps.account.stands.mpr ⟨d, hd⟩)
    rcases stays_concat.mp hb with ⟨rfl, hask⟩ | ⟨hb, -⟩
    · rcases stays_concat.mp hc with ⟨rfl, -⟩ | ⟨hc, -⟩
      · rfl
      · exact absurd hc (hold hask)
    · rcases stays_concat.mp hc with ⟨rfl, hask⟩ | ⟨hc, -⟩
      · exact absurd hb (hold hask)
      · exact ih hsteps hb hc

/-- Two tasks of a line that have asked in their order have asked for nothing since. -/
theorem order_concat {a : LockStep} (ha : Allowed steps a) (ht : t ∈ line key steps)
    (hu : u ∈ line key steps)
    (h : ∀ b c, Stays steps b t key → Stays steps c u key → b.length < c.length) (b c : List LockStep)
    (hb : Stays (steps ++ [a]) b t key) (hc : Stays (steps ++ [a]) c u key) :
    b.length < c.length := by
  have hfree : ∀ {w}, w ∈ line key steps → ∀ {k}, a ≠ .hold w k := by
    rintro w hw k rfl
    exact ha key hw
  rcases stays_concat.mp hb with ⟨-, hb⟩ | ⟨hb, -⟩
  · exact absurd hb (hfree ht)
  · rcases stays_concat.mp hc with ⟨-, hc⟩ | ⟨hc, -⟩
    · exact absurd hc (hfree hu)
    · exact h b c hb hc

/-- A line is in the order in which its tasks asked. -/
theorem Possible.pairwise (h : Possible steps) (key : String) :
    (line key steps).Pairwise fun t u =>
      ∀ b c, Stays steps b t key → Stays steps c u key → b.length < c.length := by
  induction steps using List.reverseRecOn with
  | nil => exact List.Pairwise.nil
  | append_singleton steps a ih =>
    obtain ⟨hsteps, ha⟩ := possible_concat.mp h
    have hold := ih hsteps
    cases hleave : a.leaver? with
    | some w =>
      rw [line_concat_leave hleave]
      exact (hold.sublist List.erase_sublist).imp_of_mem fun ht hu =>
        order_concat ha (List.mem_of_mem_erase ht) (List.mem_of_mem_erase hu)
    | none =>
      cases a with
      | finish w => cases hleave
      | cancel w => cases hleave
      | hold w k =>
        rw [line_concat_hold, List.pairwise_append]
        refine ⟨hold.imp_of_mem (order_concat ha), by split <;> simp, fun t ht u hu b c hb hc => ?_⟩
        obtain rfl : u = w := by
          split at hu
          · exact List.mem_singleton.mp hu
          · cases hu
        -- The task that has just asked did so after all the others.
        rcases stays_concat.mp hb with ⟨-, hb⟩ | ⟨hb, -⟩
        · cases hb
          exact absurd ht (ha key)
        · rcases stays_concat.mp hc with ⟨rfl, -⟩ | ⟨hc, -⟩
          · exact hb.length_lt
          · exact absurd (hsteps.account.stands.mpr ⟨c, hc⟩) (ha key)

/-- When the first in a line leaves, the next one gets in. -/
theorem Account.entering_leave {a : LockStep} (h : Account steps) (h' : Account (steps ++ [a]))
    (hu : a.leaver? = some u) (hstep : (run steps).step a = (run steps).step (.cancel u)) :
    (run (steps ++ [a])).entered = (run steps).entered ∨
      ∃ t key, (run (steps ++ [a])).entered = (run steps).entered ++ [t] ∧
        Inside (steps ++ [a]) t key := by
  rw [run_concat, hstep]
  by_cases hhead : ∃ key, (line key steps).head? = some u
  · obtain ⟨key, hkey⟩ := hhead
    rw [entered_of_inside h.orderly h.single ((congrArg _ (h.queue key)).trans hkey), h.queue]
    obtain ⟨rest, hrest⟩ := List.head?_eq_some_iff.mp hkey
    cases rest with
    | nil => exact .inl (by rw [hrest]; exact List.append_nil _)
    | cons w rest =>
      refine .inr ⟨w, key, by rw [hrest]; rfl, h'.inside_iff.mpr ?_⟩
      rw [line_concat_leave hu, hrest, List.erase_cons_head]
      rfl
  · exact .inl (entered_of_waiting h.orderly h.single fun key hkey =>
      hhead ⟨key, by rwa [h.queue] at hkey⟩)

/-- A step lets one task in at most, and that one is inside then. -/
theorem Account.entering {a : LockStep} (h : Account steps) (h' : Account (steps ++ [a]))
    (ha : Allowed steps a) :
    (run (steps ++ [a])).entered = (run steps).entered ∨
      ∃ t key, (run (steps ++ [a])).entered = (run steps).entered ++ [t] ∧
        Inside (steps ++ [a]) t key := by
  cases a with
  | cancel u => exact h.entering_leave h' rfl rfl
  | finish u =>
    obtain ⟨key, hin⟩ := ha
    exact h.entering_leave h' rfl (step_finish_of_held (h.heldBy_of_inside hin))
  | hold u key =>
    rw [run_concat, entered_hold h.orderly, h.queue]
    split
    next hq =>
      refine .inr ⟨u, key, rfl, h'.inside_iff.mpr ?_⟩
      rw [line_concat_hold, hq, if_pos rfl]
      rfl
    next => exact .inl (List.append_nil _)

end Standing

/-! ## Steps on other keys -/

/-- Whether a step is about a key: somebody asks for it, or leaves its line. -/
def concerns (key : String) (steps : List LockStep) : LockStep → Bool
  | .hold _ k => k = key
  | .finish t | .cancel t => t ∈ line key steps

/-- The steps that are about a key. -/
def stepsOn (key : String) (steps : List LockStep) : List LockStep :=
  steps.foldl (fun done a => if concerns key done a then done ++ [a] else done) []

/-- The line of a key is made by the steps that are about it. -/
theorem line_stepsOn (key : String) (steps : List LockStep) :
    line key (stepsOn key steps) = line key steps := by
  induction steps using List.reverseRecOn with
  | nil => rfl
  | append_singleton steps a ih =>
    unfold stepsOn
    rw [List.foldl_concat, ← stepsOn]
    cases a with
    | hold t k =>
      rw [line_concat_hold]
      by_cases hk : k = key
      · rw [if_pos (by simpa [concerns] using hk), line_concat_hold, ih]
      · rw [if_neg (by simpa [concerns] using hk), if_neg hk, List.append_nil, ih]
    | finish t =>
      rw [line_concat_leave rfl]
      by_cases ht : t ∈ line key (stepsOn key steps)
      · rw [if_pos (by simpa [concerns] using ht), line_concat_leave rfl, ih]
      · rw [if_neg (by simpa [concerns] using ht), ← ih, List.erase_of_not_mem ht]
    | cancel t =>
      rw [line_concat_leave rfl]
      by_cases ht : t ∈ line key (stepsOn key steps)
      · rw [if_pos (by simpa [concerns] using ht), line_concat_leave rfl, ih]
      · rw [if_neg (by simpa [concerns] using ht), ← ih, List.erase_of_not_mem ht]

/-! ## Locks that nobody uses -/

/-- The locks without the one of a key. -/
def forget (s : FifoLocks) (key : String) : FifoLocks :=
  { s with locks := s.locks.filter fun l => l.1 ≠ key }

/-- What the locks may be after some steps when one that nobody holds or waits for may be forgotten at
any time, to be made anew for the next who asks. -/
inductive Leads : List LockStep → FifoLocks → Prop
  | start : Leads [] empty
  | step {steps s} (h : Leads steps s) (a : LockStep) : Leads (steps ++ [a]) (s.step a)
  | forget {steps s} (h : Leads steps s) (key : String) (hfree : s.queue key = []) :
    Leads steps (s.forget key)

theorem lock_forget {s : FifoLocks} {key : String} (hfree : s.lock key = ⟨none, []⟩) (k : String) :
    (s.forget key).lock k = s.lock k := by
  by_cases hk : k = key
  · subst hk
    have hnone : (s.forget k).locks.find? (fun l => l.1 = k) = none := by
      rw [List.find?_eq_none]
      intro l hl
      simpa using (List.mem_filter.mp hl).2
    rw [hfree, lock, hnone]
    rfl
  · have hsame : (s.forget key).locks.find? (fun l => l.1 = k) =
        s.locks.find? fun l => l.1 = k := by
      unfold forget
      rw [List.find?_filter]
      refine congrArg (List.find? · s.locks) (funext fun l => ?_)
      by_cases hl : l.1 = k
      · simp [hl, hk]
      · simp [hl]
    rw [lock, lock, hsame]

theorem Orderly.forget {s : FifoLocks} (h : s.Orderly) (key : String) : (s.forget key).Orderly :=
  ⟨h.patient, (List.filter_sublist.map _).nodup h.keys,
    fun p hp => h.passed p (List.mem_of_mem_filter hp)⟩

/-- Two states of the locks that nobody can tell apart. -/
structure Alike (s s' : FifoLocks) : Prop where
  left : s.Orderly
  right : s'.Orderly
  queue : ∀ key, s.queue key = s'.queue key
  entered : s.entered = s'.entered

namespace Alike

variable {s s' : FifoLocks} {t key : String}

theorem lock (h : s.Alike s') (key : String) : s.lock key = s'.lock key := by
  rw [h.left.lock_eq, h.right.lock_eq, h.queue]

theorem single (h : s.Alike s') (hs : s'.Single) : s.Single :=
  ⟨fun k => by rw [h.queue]; exact hs.nodup k,
    fun hk hkey => hs.unique (by rwa [h.queue] at hk) (by rwa [h.queue] at hkey)⟩

theorem hold (h : s.Alike s') : (s.step (.hold t key)).Alike (s'.step (.hold t key)) :=
  ⟨h.left.hold, h.right.hold,
    fun k => by rw [queue_hold h.left, queue_hold h.right, h.queue, h.queue],
    by rw [entered_hold h.left, entered_hold h.right, h.queue, h.entered]⟩

theorem cancel (h : s.Alike s') (hs : s'.Single) :
    (s.step (.cancel t)).Alike (s'.step (.cancel t)) := by
  refine ⟨h.left.cancel (h.single hs) t, h.right.cancel hs t, fun k => ?_, ?_⟩
  · rw [queue_cancel h.left (h.single hs), queue_cancel h.right hs, h.queue]
  · by_cases hhead : ∃ key, (s'.queue key).head? = some t
    · obtain ⟨key, hkey⟩ := hhead
      rw [entered_of_inside h.right hs hkey,
        entered_of_inside h.left (h.single hs) (by rw [h.queue, hkey]), h.queue, h.entered]
    · have hno : ∀ key, (s'.queue key).head? ≠ some t := fun key hkey => hhead ⟨key, hkey⟩
      rw [entered_of_waiting h.right hs hno,
        entered_of_waiting h.left (h.single hs) (fun key => by rw [h.queue]; exact hno key),
        h.entered]

theorem finish (h : s.Alike s') (hs : s'.Single) (hheld : s'.heldBy t = some key)
    (hhead : (s'.queue key).head? = some t) :
    (s.step (.finish t)).Alike (s'.step (.finish t)) := by
  have hheld' : s.heldBy t = some key :=
    heldBy_eq h.left (by rw [h.left.holder_eq_head?, h.queue, hhead]) fun k hk =>
      hs.unique (List.mem_of_mem_head? (by rw [← h.queue, ← h.left.holder_eq_head?]; exact hk))
        (List.mem_of_mem_head? hhead)
  rw [step_finish_of_held hheld, step_finish_of_held hheld']
  exact h.cancel hs

theorem forget (h : s.Alike s') (hfree : s.queue key = []) : (s.forget key).Alike s' := by
  have hlock : s.lock key = ⟨none, []⟩ := by
    rw [h.left.lock_eq, hfree]
    rfl
  refine ⟨h.left.forget key, h.right, fun k => ?_, h.entered⟩
  rw [← h.queue, FifoLocks.queue, FifoLocks.queue, lock_forget hlock]

end Alike

/-- Forgetting locks that nobody uses makes no difference. -/
theorem Leads.alike {steps : List LockStep} {s : FifoLocks} (h : Leads steps s) :
    Possible steps → s.Alike (run steps) := by
  induction h with
  | start => exact fun _ => ⟨orderly_empty, orderly_empty, fun _ => rfl, rfl⟩
  | @step steps s _ a ih =>
    intro hp
    obtain ⟨hsteps, ha⟩ := possible_concat.mp hp
    have hacc := hsteps.account
    have hs := ih hsteps
    rw [run_concat]
    cases a with
    | hold t key => exact hs.hold
    | cancel t => exact hs.cancel hacc.single
    | finish t =>
      obtain ⟨key, hin⟩ := ha
      exact hs.finish hacc.single (hacc.heldBy_of_inside hin)
        (by rw [hacc.queue]; exact hacc.inside_iff.mp hin)
  | forget _ key hfree ih => exact fun hp => (ih hp).forget hfree

/-! ## Fairness -/

/-- What the locks guarantee after some steps. -/
structure Fair (steps : List LockStep) : Prop where
  /-- One task at a time is inside for a key. -/
  exclusive : ∀ {t u key}, Inside steps t key → Inside steps u key → t = u
  /-- Who is inside asked before everybody else who asked for the key and has not left. -/
  ordered : ∀ {b c t u key}, Stays steps b t key → Stays steps c u key → u ∈ got steps c →
    c.length ≤ b.length
  /-- A step lets one task in at most, and that one is inside then. -/
  entering : ∀ {before a}, steps = before ++ [a] →
    (run steps).entered = (run before).entered ∨
      ∃ t key, (run steps).entered = (run before).entered ++ [t] ∧ Inside steps t key
  /-- Nobody waits for a key that is free. -/
  awake : ∀ {t key}, Waits steps t key → ∃ u, Inside steps u key
  /-- A key is locked while a task is inside, and only then. -/
  locked : ∀ key, (run steps).isLocked key = true ↔ ∃ t, Inside steps t key
  present : ∀ t, t ∈ (run steps).inside ↔ ∃ key, Inside steps t key
  /-- Other steps with the same steps on a key leave it as these do. -/
  separate : ∀ {others key}, Possible others → stepsOn key others = stepsOn key steps →
    (∀ t, Inside others t key ↔ Inside steps t key) ∧
    (∀ t, Waits others t key ↔ Waits steps t key) ∧
    (run others).isLocked key = (run steps).isLocked key
  /-- It makes no difference when locks that nobody uses are forgotten. -/
  forgetful : ∀ {s}, Leads steps s →
    s.entered = (run steps).entered ∧ ∀ key, s.lock key = (run steps).lock key

/-- The locks are fair, whatever the tasks do. -/
theorem locks_fair {steps : List LockStep} (h : Possible steps) : Fair steps := by
  have hacc := h.account
  refine ⟨fun ht hu => ?_, fun {b c t u key} ht hu hgot => ?_, ?_, fun {t key} ht => ?_,
    fun key => ?_, fun t => hacc.mem_inside, fun {others key} hothers hsame => ?_, fun hs => ?_⟩
  · exact Option.some.inj ((hacc.inside_iff.mp ht).symm.trans (hacc.inside_iff.mp hu))
  · -- The task inside is the first in line, and the line is in the order of asking.
    obtain ⟨rest, hline⟩ := List.head?_eq_some_iff.mp ((hacc.inside hu).mp hgot)
    have hpair := h.pairwise key
    rw [hline, List.pairwise_cons] at hpair
    have hmem := hacc.stands.mpr ⟨b, ht⟩
    rw [hline] at hmem
    rcases List.mem_cons.mp hmem with rfl | hmem
    · exact Nat.le_of_eq (congrArg List.length (h.asked_once hu ht))
    · exact Nat.le_of_lt (hpair.1 t hmem c b hu ht)
  · rintro before a rfl
    obtain ⟨hbefore, ha⟩ := possible_concat.mp h
    exact hbefore.account.entering hacc ha
  · have htail := hacc.waits_iff.mp ht
    cases hline : line key steps with
    | nil => rw [hline] at htail; cases htail
    | cons u rest => exact ⟨u, hacc.inside_iff.mpr (by rw [hline]; rfl)⟩
  · rw [hacc.isLocked_eq, Option.isSome_iff_exists]
    exact exists_congr fun t => hacc.inside_iff.symm
  · have hline : line key others = line key steps := by
      rw [← line_stepsOn, hsame, line_stepsOn]
    have hacc' := hothers.account
    refine ⟨fun t => ?_, fun t => ?_, ?_⟩
    · rw [hacc'.inside_iff, hacc.inside_iff, hline]
    · rw [hacc'.waits_iff, hacc.waits_iff, hline]
    · rw [hacc'.isLocked_eq, hacc.isLocked_eq, hline]
  · have halike := hs.alike h
    exact ⟨halike.entered, halike.lock⟩

/-- Three tasks ask for one key and a fourth for another; the second gives up, the first comes to an
end and asks again. -/
def crowd : List LockStep :=
  [.hold "a" "e1", .hold "b" "e1", .hold "c" "e1", .hold "d" "e2", .cancel "b", .finish "a",
    .hold "a" "e1"]

theorem possible_crowd : Possible crowd := by
  have ha : Possible [.hold "a" "e1"] := Possible.then inTurn_nil fun key => by simp [line]
  have hb : Possible [.hold "a" "e1", .hold "b" "e1"] := ha.then fun key => by simp [line]
  have hc : Possible [.hold "a" "e1", .hold "b" "e1", .hold "c" "e1"] :=
    hb.then fun key => by by_cases h1 : "e1" = key <;> simp [line, h1]
  have hd : Possible [.hold "a" "e1", .hold "b" "e1", .hold "c" "e1", .hold "d" "e2"] :=
    hc.then fun key => by by_cases h1 : "e1" = key <;> simp [line, h1]
  have hgone : Possible [.hold "a" "e1", .hold "b" "e1", .hold "c" "e1", .hold "d" "e2",
      .cancel "b"] := hd.then trivial
  have hend : Possible [.hold "a" "e1", .hold "b" "e1", .hold "c" "e1", .hold "d" "e2",
      .cancel "b", .finish "a"] :=
    hgone.then ⟨"e1", hgone.account.inside_iff.mpr (by decide)⟩
  exact hend.then fun key => by
    by_cases h1 : "e1" = key <;> by_cases h2 : "e2" = key <;> simp [line, h1, h2]

theorem locks_fair_crowd : Possible crowd ∧ Fair crowd :=
  ⟨possible_crowd, locks_fair possible_crowd⟩

end FifoLocks

end Custody
