import Custody.Ledger.Gateway
import Custody.Proofs.Refusal

/-!
# What the reply to a read means

A view is taken from an answer that tells one, whatever its status, as long as that is none of an error.
An answer of 404 is the escrow that the gateway does not know. Everything else is a failed read; but a
request that broke elsewhere than at the connection, and an answer that is nested too deep for the room
that is left to read it, are told as what they are.

> `View.read_eq_ok_iff`: which objects tell a view.
> `understood_fetchOutcome`: what a reply means.
-/

namespace Custody

/-! ## Fields -/

section Fields

variable {α β : Type} {ms : Members} {name : String} {r : Reader α} {a : α} {v : Json}

theorem Reading.under_eq_ok_iff {step : PathStep} {x : Reading α} :
    x.under step = .ok a ↔ x = .ok a :=
  ⟨Reading.under_eq_ok, fun h => by rw [h]; rfl⟩

theorem required_eq_ok_iff :
    required ms name r = .ok a ↔ ∃ v, Json.lookup name ms = some v ∧ r v = .ok a := by
  rw [required, Reading.under_eq_ok_iff]
  cases Json.lookup name ms with
  | none => exact iff_of_false nofun nofun
  | some v => simp

theorem nullable_eq_ok_iff {o : Option α} : nullable r v = .ok o ↔
    (v = .null ∧ o = none) ∨ (v ≠ .null ∧ ∃ a, r v = .ok a ∧ o = some a) := by
  by_cases hv : v = .null
  · subst hv
    simp [nullable, eq_comm]
  · have hmap : nullable r v = (r v).map some := by
      unfold nullable
      split
      next => exact absurd rfl hv
      next => rfl
    rw [hmap]
    cases r v <;> simp [Except.map, hv, eq_comm]

/-- A field that may be null or left out. -/
theorem defaulted_nullable_eq_ok_iff {o : Option α} :
    defaulted ms name (nullable r) none = .ok o ↔
      ((Json.lookup name ms = none ∨ Json.lookup name ms = some .null) ∧ o = none) ∨
        ∃ v a, Json.lookup name ms = some v ∧ v ≠ .null ∧ r v = .ok a ∧ o = some a := by
  unfold defaulted optional
  cases Json.lookup name ms with
  | none => simp [Except.map, eq_comm]
  | some v =>
    have hunder : (((nullable r v).under (.key name)).map some).map (·.getD none) = .ok o ↔
        nullable r v = .ok o := by
      cases nullable r v <;> simp [Reading.under, Except.map]
    rw [hunder, nullable_eq_ok_iff]
    simp

theorem looseText_eq_ok_iff {t : LooseText} : looseText v = .ok t ↔ v = .ofLoose t := by
  cases t <;> cases v <;> simp [looseText, Json.ofLoose, Reading.fault]

end Fields

/-- A state has one word. -/
theorem Status.ofWord?_eq_some_iff {w : String} {s : Status} : ofWord? w = some s ↔ w = word s := by
  constructor
  · intro h
    have hword := List.find?_some h
    exact (of_decide_eq_true hword).symm
  · rintro rfl
    exact ofWord?_word s

theorem Status.wordOf_text_eq_ok_iff {w : String} {s : Status} :
    wordOf Status (.text w) = .ok s ↔ w = word s := by
  rw [← ofWord?_eq_some_iff]
  unfold wordOf
  dsimp only
  cases (ofWord? w : Option Status) <;> simp [Reading.fault]

namespace Gateway

/-- A state is told in letters of any size. -/
theorem statusField_eq_ok_iff {v : Json} {s : Status} :
    statusField v = .ok s ↔ ∃ t, v = .text t ∧ Text.upper t = word s := by
  unfold statusField
  split
  next t => simp [Status.wordOf_text_eq_ok_iff]
  next hno =>
    refine iff_of_false (fun h => ?_) fun ⟨t, ht, _⟩ => hno t ht
    unfold wordOf at h
    split at h
    next t => exact hno t rfl
    next =>
      unfold misfit at h
      split at h <;> cases h

/-! ## Views -/

/-- An object that tells a view. -/
structure View.IsTold (w : View) (ms : Members) : Prop where
  status : ∃ t, Json.lookup "status" ms = some (.text t) ∧ Text.upper t = word w.status
  amount : ∃ v, Json.lookup "amount" ms = some v ∧ decimal .value v = .ok w.amount
  released : ∃ v, Json.lookup "is_released" ms = some v ∧ truth v = .ok w.released
  transaction :
    ((Json.lookup "release_tx_hash" ms = none ∨ Json.lookup "release_tx_hash" ms = some .null) ∧
        w.transaction = none) ∨
      ∃ t, Json.lookup "release_tx_hash" ms = some (.ofLoose t) ∧ w.transaction = some t
  deadline :
    ((Json.lookup "expires_at" ms = none ∨ Json.lookup "expires_at" ms = some .null) ∧
        w.deadline = none) ∨
      ∃ v m, Json.lookup "expires_at" ms = some v ∧ moment .value v = .ok m ∧ w.deadline = some m

/-- A view is read from an object field by field. -/
theorem View.read_object_eq_ok_iff {ms : Members} {w : View} :
    View.read (.object ms) = .ok w ↔
      required ms "status" statusField = .ok w.status ∧
      required ms "amount" (decimal .value) = .ok w.amount ∧
      required ms "is_released" truth = .ok w.released ∧
      defaulted ms "release_tx_hash" (nullable looseText) none = .ok w.transaction ∧
      defaulted ms "expires_at" (nullable (moment .value)) none = .ok w.deadline := by
  constructor
  · intro h
    obtain ⟨deadline, _, hdeadline, h₄, rfl⟩ := Reading.arg_eq_ok h
    obtain ⟨transaction, _, htransaction, h₃, rfl⟩ := Reading.arg_eq_ok h₄
    obtain ⟨released, _, hreleased, h₂, rfl⟩ := Reading.arg_eq_ok h₃
    obtain ⟨amount, _, hamount, h₁, rfl⟩ := Reading.arg_eq_ok h₂
    obtain ⟨status, _, hstatus, hmk, rfl⟩ := Reading.arg_eq_ok h₁
    cases hmk
    exact ⟨hstatus, hamount, hreleased, htransaction, hdeadline⟩
  · rintro ⟨hstatus, hamount, hreleased, htransaction, hdeadline⟩
    show Reading.arg _ (Reading.arg _ (Reading.arg _ (Reading.arg _ (Reading.arg _ _)))) = .ok w
    rw [hstatus, hamount, hreleased, htransaction, hdeadline]
    rfl

/-- A view is read from the objects that tell it, and from nothing else. -/
theorem View.read_eq_ok_iff {v : Json} {w : View} :
    View.read v = .ok w ↔ ∃ ms, v = .object ms ∧ w.IsTold ms := by
  cases v with
  | object ms =>
    rw [View.read_object_eq_ok_iff]
    simp only [required_eq_ok_iff, defaulted_nullable_eq_ok_iff, statusField_eq_ok_iff,
      looseText_eq_ok_iff, Json.object.injEq, exists_eq_left']
    constructor
    · rintro ⟨⟨_, hstatus, t, rfl, hword⟩, hamount, hreleased, htransaction, hdeadline⟩
      refine ⟨⟨t, hstatus, hword⟩, hamount, hreleased, htransaction.imp_right ?_,
        hdeadline.imp_right ?_⟩
      · rintro ⟨_, t, hlookup, -, rfl, h⟩
        exact ⟨t, hlookup, h⟩
      · rintro ⟨v, m, hlookup, -, hm, h⟩
        exact ⟨v, m, hlookup, hm, h⟩
    · rintro ⟨⟨t, hstatus, hword⟩, hamount, hreleased, htransaction, hdeadline⟩
      refine ⟨⟨_, hstatus, t, rfl, hword⟩, hamount, hreleased, htransaction.imp_right ?_,
        hdeadline.imp_right ?_⟩
      · rintro ⟨t, hlookup, h⟩
        exact ⟨_, t, hlookup, Json.ofLoose_ne_null t, rfl, h⟩
      · rintro ⟨v, m, hlookup, hm, h⟩
        refine ⟨v, m, hlookup, ?_, hm, h⟩
        rintro rfl
        cases hm
  | _ => exact iff_of_false nofun nofun

/-! ## Replies -/

namespace Reply

/-- An answer that is none of an error. -/
def Taken (r : Reply) (body : List UInt8) (spare : Nat) : Prop :=
  ∃ status, r = .response status body spare ∧ ¬(400 ≤ status ∧ status ≤ 599)

/-- An answer that tells a view. -/
def Shows (r : Reply) (w : View) : Prop :=
  ∃ body spare members, r.Taken body spare ∧ Json.ofDocument spare body = .ok (.object members) ∧
    w.IsTold members

/-- An answer that is nested too deep for the room that is left to read it. -/
def ShowsTooDeep (r : Reply) (inObject : Bool) : Prop :=
  ∃ body spare, r.Taken body spare ∧ Json.ofDocument spare body = .error (.tooDeep inObject)

end Reply

/-- The failures of a read that its caller expects. -/
inductive FetchFault.Expected (id : String) : FetchFault → Prop
  | unknown : Expected id (.failed (.escrow (.ledger (.unknownEscrow id))))
  | failed (m : String) : Expected id (.failed (.escrow (.ledger (.fetch m))))
  | unreadable (e : Json.ReadError) : Expected id (.unreadable e)
  | wrongShape (findings : List Finding) : Expected id (.wrongShape findings)

/-- What a reply comes to. -/
structure Understood (id : String) (r : Reply) (o : Except FetchFault View) : Prop where
  view : ∀ w, o = .ok w ↔ r.Shows w
  unknown : o = fetchFault (.unknownEscrow id) ↔ ∃ body spare, r = .response 404 body spare
  uncaught : ∀ name, o = .error (.uncaught name) ↔ ∃ m, r = .broken name m false
  tooDeep : ∀ d, o = .error (.failed (.tooDeep d)) ↔ r.ShowsTooDeep d
  others : ∀ f, o = .error f → f.Expected id ∨ (∃ name, f = .uncaught name) ∨
    ∃ d, f = .failed (.tooDeep d)

section Outcomes

variable {id : String} {r : Reply} {status : Int} {body : List UInt8} {spare : Nat}

theorem taken_response_iff {document : List UInt8} {room : Nat} :
    (Reply.response status body spare).Taken document room ↔
      (document = body ∧ room = spare) ∧ ¬(400 ≤ status ∧ status ≤ 599) := by
  simp [Reply.Taken, eq_comm]

theorem shows_response_iff {w : View} : (Reply.response status body spare).Shows w ↔
    ¬(400 ≤ status ∧ status ≤ 599) ∧
      ∃ v, Json.ofDocument spare body = .ok v ∧ View.read v = .ok w := by
  simp only [Reply.Shows, taken_response_iff, View.read_eq_ok_iff]
  constructor
  · rintro ⟨_, _, ms, ⟨⟨rfl, rfl⟩, htaken⟩, hbody, htold⟩
    exact ⟨htaken, _, hbody, ms, rfl, htold⟩
  · rintro ⟨htaken, _, hbody, ms, rfl, htold⟩
    exact ⟨_, _, ms, ⟨⟨rfl, rfl⟩, htaken⟩, hbody, htold⟩

theorem showsTooDeep_response_iff {d : Bool} : (Reply.response status body spare).ShowsTooDeep d ↔
    ¬(400 ≤ status ∧ status ≤ 599) ∧ Json.ofDocument spare body = .error (.tooDeep d) := by
  simp only [Reply.ShowsTooDeep, taken_response_iff]
  constructor
  · rintro ⟨_, _, ⟨⟨rfl, rfl⟩, htaken⟩, hbody⟩
    exact ⟨htaken, hbody⟩
  · rintro ⟨htaken, hbody⟩
    exact ⟨_, _, ⟨⟨rfl, rfl⟩, htaken⟩, hbody⟩

/-- A broken request shows nothing. -/
theorem not_shows_broken {name m : String} {transport : Bool} {w : View} :
    ¬(Reply.broken name m transport).Shows w := fun ⟨_, _, _, ⟨_, h, _⟩, _⟩ => nomatch h

theorem not_showsTooDeep_broken {name m : String} {transport d : Bool} :
    ¬(Reply.broken name m transport).ShowsTooDeep d := fun ⟨_, _, ⟨_, h, _⟩, _⟩ => nomatch h

/-- What is expected is told of a reply that shows nothing and broke only at the connection. -/
theorem understood_of_expected {f : FetchFault} (hf : f.Expected id) (hview : ∀ w, ¬r.Shows w)
    (hdeep : ∀ d, ¬r.ShowsTooDeep d) (hbroken : ∀ name m, r ≠ .broken name m false)
    (hunknown : f = .failed (.escrow (.ledger (.unknownEscrow id))) ↔
      ∃ body spare, r = .response 404 body spare) : Understood id r (.error f) where
  view := fun w => iff_of_false nofun (hview w)
  unknown := by rw [← hunknown, fetchFault, Except.error.injEq]
  uncaught := fun name => by
    refine iff_of_false (fun h => ?_) fun ⟨m, h⟩ => hbroken name m h
    cases h
    cases hf
  tooDeep := fun d => by
    refine iff_of_false (fun h => ?_) (hdeep d)
    cases h
    cases hf
  others := fun g hg => by
    cases hg
    exact .inl hf

/-- A request that broke elsewhere is told as it is. -/
theorem understood_uncaught {name m : String} :
    Understood id (.broken name m false) (.error (.uncaught name)) where
  view := fun w => iff_of_false nofun not_shows_broken
  unknown := iff_of_false nofun nofun
  uncaught := by simp
  tooDeep := fun d => iff_of_false nofun not_showsTooDeep_broken
  others := fun f hf => by
    cases hf
    exact .inr (.inl ⟨_, rfl⟩)

/-- One that broke at the connection is a failed read. -/
theorem understood_unreachable {name m m' : String} :
    Understood id (.broken name m true) (fetchFault (.fetch m')) :=
  understood_of_expected (.failed m') (fun _ => not_shows_broken) (fun _ => not_showsTooDeep_broken)
    nofun (iff_of_false nofun nofun)

/-- The gateway does not know the escrow. -/
theorem understood_unknown :
    Understood id (.response 404 body spare) (fetchFault (.unknownEscrow id)) :=
  understood_of_expected .unknown (by simp [shows_response_iff])
    (by simp [showsTooDeep_response_iff]) nofun (iff_of_true rfl ⟨body, spare, rfl⟩)

/-- Another answer of an error is a failed read. -/
theorem understood_refused {m : String} (herror : 400 ≤ status ∧ status ≤ 599)
    (h404 : status ≠ 404) : Understood id (.response status body spare) (fetchFault (.fetch m)) := by
  refine understood_of_expected (.failed m) (by simp [shows_response_iff, herror])
    (by simp [showsTooDeep_response_iff, herror]) nofun (iff_of_false nofun ?_)
  rintro ⟨_, _, h⟩
  cases h
  exact h404 rfl

section Taken

variable (htaken : ¬(400 ≤ status ∧ status ≤ 599))
include htaken

/-- What is no error is not 404. -/
theorem ne_unknown_of_taken : ¬∃ b s, Reply.response status body spare = .response 404 b s := by
  rintro ⟨_, _, h⟩
  cases h
  exact htaken (by decide)

/-- An answer that is nested too deep is told as it is. -/
theorem understood_tooDeep {d : Bool} (hbody : Json.ofDocument spare body = .error (.tooDeep d)) :
    Understood id (.response status body spare) (.error (.failed (.tooDeep d))) where
  view := fun w => by simp [shows_response_iff, hbody]
  unknown := iff_of_false nofun (ne_unknown_of_taken htaken)
  uncaught := fun name => iff_of_false nofun nofun
  tooDeep := fun d' => by simp [showsTooDeep_response_iff, htaken, hbody]
  others := fun f hf => by
    cases hf
    exact .inr (.inr ⟨_, rfl⟩)

/-- One that is no document otherwise is a failed read. -/
theorem understood_unreadable {e : Json.ReadError} (hbody : Json.ofDocument spare body = .error e)
    (hdeep : ∀ d, e ≠ .tooDeep d) :
    Understood id (.response status body spare) (.error (.unreadable e)) :=
  understood_of_expected (.unreadable e) (by simp [shows_response_iff, hbody])
    (by simp [showsTooDeep_response_iff, hbody, hdeep]) nofun
    (iff_of_false nofun (ne_unknown_of_taken htaken))

/-- And so is a document that tells no view. -/
theorem understood_wrongShape {v : Json} {findings : List Finding}
    (hbody : Json.ofDocument spare body = .ok v) (hv : View.read v = .error findings) :
    Understood id (.response status body spare) (.error (.wrongShape findings)) :=
  understood_of_expected (.wrongShape findings) (by simp [shows_response_iff, hbody, hv])
    (by simp [showsTooDeep_response_iff, hbody]) nofun
    (iff_of_false nofun (ne_unknown_of_taken htaken))

/-- A view is told of an answer that shows it. -/
theorem understood_view {v : Json} {w : View} (hbody : Json.ofDocument spare body = .ok v)
    (hv : View.read v = .ok w) : Understood id (.response status body spare) (.ok w) where
  view := fun w' => by simp [shows_response_iff, htaken, hbody, hv]
  unknown := iff_of_false nofun (ne_unknown_of_taken htaken)
  uncaught := fun name => iff_of_false nofun nofun
  tooDeep := fun d => by simp [showsTooDeep_response_iff, hbody]
  others := nofun

end Taken

/-- From an address that tells its kind, a reply comes to what it means. -/
theorem understood_of_tellsKind {a : Address} (ha : a.tellsKind = true) (id : String) (r : Reply) :
    Understood id r (fetchOutcome a id r) := by
  cases r with
  | broken name m transport =>
    cases transport with
    | false => exact understood_uncaught
    | true => exact understood_unreachable
  | response status body spare =>
    -- The client looks at the status first, then at the body; so do the meanings.
    simp only [fetchOutcome, ha, Bool.not_true, Bool.false_eq_true, if_false]
    split
    next h404 =>
      subst h404
      exact understood_unknown
    next h404 =>
      split
      next herror => exact understood_refused herror h404
      next htaken =>
        split
        next hbody => exact understood_tooDeep htaken hbody
        next hdeep hbody => exact understood_unreadable htaken hbody hdeep
        next hbody =>
          split
          next hv => exact understood_view htaken hbody hv
          next hv => exact understood_wrongShape htaken hbody hv

/-- From another address, an answer is a value that the client cannot read. -/
theorem understood_fetchOutcome (a : Address) (id : String) (r : Reply) :
    Understood id r (fetchOutcome a id r) ∨
      a.tellsKind = false ∧ (∃ status body spare, r = .response status body spare) ∧
        fetchOutcome a id r = .error (.failed (.value (.address a.text))) := by
  cases ha : a.tellsKind with
  | true => exact .inl (understood_of_tellsKind ha id r)
  | false =>
    cases r with
    | broken name m transport =>
      cases transport with
      | false => exact .inl understood_uncaught
      | true => exact .inl understood_unreachable
    | response status body spare =>
      refine .inr ⟨rfl, ⟨status, body, spare, rfl⟩, ?_⟩
      rw [fetchOutcome, ha]
      rfl

end Outcomes

end Gateway

end Custody
