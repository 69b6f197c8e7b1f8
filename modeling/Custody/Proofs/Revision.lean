import Custody.Proofs.Expiry

/-!
# How an update is decided

An update writes the terms that differ from those on record, and nothing where none does. The record
then has the terms that were asked for, up to one thing: a deadline is read back as the clock showed it.
So an update that is repeated finds nothing to do, except where it gives a deadline with an offset from
UTC. That one differs from what is read back, whatever its offset, and each repetition writes it anew.

> `foldl_changesOf`: with its changes a record has the terms that an update asks for.
> `changesOf_revise`: what is left to change then is a deadline with an offset.
> `Records.updated_of_permit`: what an update leaves that may be made.
> `update_repeated`: what the same update leaves right after it.
-/

namespace Custody

/-! ## Changes -/

/-- What is given for a term, where it differs from what it is. -/
def news {α : Type} [DecidableEq α] (given : Option α) (current : α) : Option α :=
  match given with
  | some v => if v = current then none else some v
  | none => none

/-- The record with the terms that an update asks for. A title cannot be cleared. -/
def UpdateRequest.revise (u : UpdateRequest) (e : Escrow) : Escrow :=
  { e with
    title := u.title.join.getD e.title
    description := u.description.getD e.description
    deadline := u.deadline.getD e.deadline }

/-- The deadline that an update gives with an offset from UTC, if it does. -/
def UpdateRequest.zoned? (u : UpdateRequest) : Option Moment :=
  match u.deadline with
  | some (some ⟨w, some o⟩) => some ⟨w, some o⟩
  | _ => none

section Changes

variable {α : Type} [DecidableEq α]

@[simp]
theorem news_none (current : α) : news none current = none := rfl

@[simp]
theorem news_self (v : α) : news (some v) v = none := if_pos rfl

theorem news_of_ne {v current : α} (h : v ≠ current) : news (some v) current = some v := if_neg h

/-- No news is what is left to give for a term that has been set. -/
@[simp]
theorem news_getD (given : Option α) (current : α) : news given (given.getD current) = none := by
  cases given <;> simp

/-- With the news a term is as it was given. -/
@[simp]
theorem getD_news (given : Option α) (current : α) :
    (news given current).getD current = given.getD current := by
  cases given with
  | none => rfl
  | some v =>
    by_cases h : v = current
    · rw [h, news_self]
      rfl
    · rw [news_of_ne h]

/-- The changes that an update makes, term by term. -/
theorem changesOf_eq (e : Escrow) (u : UpdateRequest) : changesOf e u =
    (news u.title.join e.title).toList.map .title ++
      (news u.description e.description).toList.map .description ++
      (news u.deadline e.deadline).toList.map .deadline := by
  unfold changesOf
  congr 1
  congr 1
  all_goals
    split
    next v hv =>
      simp only [hv, news]
      split <;> rfl
    next hv =>
      rw [hv]
      rfl

theorem foldl_changes (e : Escrow) (t : Option String) (d : Option (Option String))
    (m : Option (Option Moment)) :
    (t.toList.map Change.title ++ d.toList.map Change.description ++
        m.toList.map Change.deadline).foldl Change.apply e =
      { e with
        title := t.getD e.title, description := d.getD e.description
        deadline := m.getD e.deadline } := by
  cases t <;> cases d <;> cases m <;> rfl

/-- With the changes that an update makes, a record has the terms asked for. -/
theorem foldl_changesOf (e : Escrow) (u : UpdateRequest) :
    (changesOf e u).foldl Change.apply e = u.revise e := by
  rw [changesOf_eq, foldl_changes, getD_news, getD_news, getD_news]
  rfl

/-- Where the changes are those to what was read of a record, the record itself may keep the offset that
its deadline was given with. It is lost when the record is read. -/
theorem loaded_foldl_changesOf (e : Escrow) (u : UpdateRequest) :
    ((changesOf e.loaded u).foldl Change.apply e).loaded = (u.revise e).loaded := by
  have hread : ∀ m : Option (Option Moment),
      ((news m (e.deadline.map Moment.withoutOffset)).getD e.deadline).map Moment.withoutOffset =
        (m.getD e.deadline).map Moment.withoutOffset := by
    rintro (_ | m)
    · rfl
    · by_cases h : m = e.deadline.map Moment.withoutOffset
      · rw [h, news_self]
        cases e.deadline <;> rfl
      · rw [news_of_ne h]
  rw [changesOf_eq, foldl_changes]
  show { e with
    title := (news u.title.join e.title).getD e.title
    description := (news u.description e.description).getD e.description
    deadline := ((news u.deadline (e.deadline.map Moment.withoutOffset)).getD e.deadline).map
      Moment.withoutOffset
    amount := e.loaded.amount } = _
  rw [getD_news, getD_news, hread]
  rfl

/-- Where the terms asked for are on record, the same update asks for a change of the deadline if it
gives one with an offset, and for no other. -/
theorem changesOf_revise (e : Escrow) (u : UpdateRequest) :
    changesOf (u.revise e).loaded u = u.zoned?.toList.map fun m => .deadline (some m) := by
  rw [changesOf_eq]
  show (news u.title.join (u.title.join.getD e.title)).toList.map _ ++
    (news u.description (u.description.getD e.description)).toList.map _ ++
    (news u.deadline ((u.deadline.getD e.deadline).map Moment.withoutOffset)).toList.map _ = _
  rw [news_getD, news_getD, UpdateRequest.zoned?]
  obtain _ | _ | ⟨w, _ | o⟩ := u.deadline
  case none | some.none => rfl
  case some.some.none => exact congrArg (List.map _ ∘ Option.toList) (news_self _)
  case some.some.some =>
    have hne : (some ⟨w, some o⟩ : Option Moment) ≠ some ⟨w, none⟩ := by simp
    exact congrArg (List.map _ ∘ Option.toList) (news_of_ne hne)

/-- A deadline with an offset is the one that is given. -/
theorem UpdateRequest.deadline_of_zoned? {u : UpdateRequest} {m : Moment} (h : u.zoned? = some m) :
    u.deadline = some (some m) := by
  unfold zoned? at h
  split at h
  next hd => rw [hd, Option.some.inj h]
  next => cases h

end Changes

/-! ## Plans -/

/-- The draft of the event that terms have been changed. -/
def revisionDraft (by' : Caller) (e : Escrow) (changes : List Change) : EventDraft :=
  ⟨.updated, by'.user, some e.status, some e.status, .updated changes, by'.address⟩

/-- What is announced of a change of terms. -/
def revisionNote (changes : List Change) : Announcement :=
  ⟨.updated, [("changes", .json (changedFields changes))]⟩

section Plans

variable {e : Escrow}

/-- An update that may be made writes the changes, if there are any. -/
theorem planUpdate_of_permit (by' : Caller) (hp : permit e by'.user .update = .ok ())
    (u : UpdateRequest) :
    (changesOf e u = [] ∧ planUpdate u by' e = .ok Writes.nothing) ∨
    (changesOf e u ≠ [] ∧ ∃ w, planUpdate u by' e = .ok w ∧
      w.Come none (some (.terms (changesOf e u))) [revisionDraft by' e (changesOf e u)]
        (some (revisionNote (changesOf e u)))) := by
  simp only [planUpdate, hp, bind, Except.bind]
  by_cases h : changesOf e u = []
  · exact .inl ⟨h, if_pos h⟩
  · exact .inr ⟨h, _, if_neg h, rfl, rfl, rfl, rfl⟩

/-- The creator may change the terms of a pending escrow, being its buyer. -/
theorem permit_update_of_creator (hs : e.status = .pending) (hb : ⟨e.creator, .buyer⟩ ∈ e.parties) :
    permit e e.creator .update = .ok () := by
  rw [permit_eq_ok_iff, hs]
  exact .inr ⟨_, rfl, .buyer, List.mem_singleton_self _, hb⟩

end Plans

/-! ## Transactions -/

/-- What an update leaves that makes these changes to the record of an escrow. -/
structure Outcome.Updated (o : Outcome Answer) (r : Records) (env : Surroundings) (by' : Caller)
    (e : Escrow) (changes : List Change) : Prop where
  idle : changes = [] → o.result = .ok (.escrow e.loaded) ∧ o.Idle r
  recorded : changes ≠ [] →
    o.Recorded r env.now ((Patch.terms changes).applyAt env.now e.loaded)
      (revisionDraft by' e changes) (revisionNote changes)
  stored : o.store.stored? e.id =
    some (if changes = [] then e else (Patch.terms changes).applyAt env.now e)

section Transactions

variable {r : Records} {env : Surroundings} {e : Escrow}

/-- An update that may be made goes through, with the changes that it makes. -/
theorem Records.updated_of_permit (hk : Kept r.store r.counters) (henv : env.InOrder)
    (he : r.store.stored? e.id = some e) (by' : Caller)
    (hp : permit e.loaded by'.user .update = .ok ()) (u : UpdateRequest) :
    (r.outcome ⟨env, by', .task e.id (.update u)⟩).Updated r env by' e (changesOf e.loaded u) := by
  have hread : r.store.escrow? e.id = some e.loaded := Store.escrow?_of_stored? he
  rcases planUpdate_of_permit by' hp u with ⟨hnone, hw⟩ | ⟨hsome, w, hw, hcome⟩
  · obtain ⟨hresult, hstore, -, hannounced⟩ := r.outcome_task henv by' e.id (.update u)
    have hplan : Task.plan env.now by' e.loaded (r.store.conditionsOf e.id) (.update u) =
        ⟨{ log := [] }, .finish⟩ := congrArg Plan.ofWrites hw
    rw [carryOut_of_finish hread hplan] at hresult hstore hannounced
    constructor
    case idle => exact fun _ => ⟨hresult, hstore, hannounced⟩
    case recorded => exact fun h => absurd hnone h
    case stored => rw [if_pos hnone, hstore, he]
  · have hconclude : (Task.plan env.now by' e.loaded (r.store.conditionsOf e.id)
        (.update u)).conclude env.ask = ⟨w, .ok (), none⟩ :=
      congrArg (fun x => (Plan.ofWrites x).conclude env.ask) hw
    obtain ⟨hrecorded, hstored⟩ := recorded_of_come hk henv he hconclude rfl hcome
    constructor
    case idle => exact fun h => absurd h hsome
    case recorded => exact fun _ => hrecorded
    case stored => rw [if_neg hsome, hstored]

/-- An update of a pending escrow by its creator does. -/
theorem Records.updated_of_creator (hk : Kept r.store r.counters) (henv : env.InOrder)
    (he : r.store.stored? e.id = some e) (hs : e.status = .pending) (address : Option String)
    (u : UpdateRequest) :
    (r.outcome ⟨env, ⟨e.creator, address⟩, .task e.id (.update u)⟩).Updated r env
      ⟨e.creator, address⟩ e (changesOf e.loaded u) := by
  have hsound : e.Sound := hk.sound e (List.mem_of_find?_eq_some he)
  have hp : permit e.loaded e.creator .update = .ok () :=
    permit_update_of_creator (e := e.loaded) hs hsound.buyer
  exact updated_of_permit hk henv he ⟨e.creator, address⟩ hp u

/-- No other update goes through. -/
theorem Records.updated_of_ok (hk : Kept r.store r.counters) {by' : Caller} {x : Identifier}
    {u : UpdateRequest} {answer : Answer}
    (h : (r.outcome ⟨env, by', .task x (.update u)⟩).result = .ok answer) :
    ∃ e, e.id = x ∧ r.store.stored? x = some e ∧
      (r.outcome ⟨env, by', .task x (.update u)⟩).Updated r env by' e (changesOf e.loaded u) := by
  have henv : env.InOrder := by
    by_contra henv
    obtain ⟨⟨f, hf⟩, -⟩ := Operation.run_task_of_not_inOrder henv x (.update u) by' r.store r.store
      r.counters
    exact nomatch h.symm.trans hf
  obtain ⟨hresult, -⟩ := r.outcome_task henv by' x (.update u)
  obtain ⟨e', he'⟩ : ∃ e', (carryOut env x (fun e cs => Task.plan env.now by' e cs (.update u)) r.store
      r.counters).result = .ok e' := by
    cases hr : (carryOut env x (fun e cs => Task.plan env.now by' e cs (.update u)) r.store
      r.counters).result with
    | ok e' => exact ⟨e', rfl⟩
    | error f =>
      rw [h, hr] at hresult
      cases hresult
  obtain ⟨d, hread, hverdict, -⟩ := carryOut_eq_ok he'
  obtain ⟨e, he, rfl⟩ := Option.map_eq_some_iff.mp hread
  have hid : e.id = x := by simpa using List.find?_some he
  subst hid
  obtain ⟨w, hw, -⟩ := Plan.conclude_ofWrites hverdict
  obtain ⟨_, hp, -⟩ := Except.bind_eq_ok_iff.mp hw
  exact ⟨e, rfl, he, updated_of_permit hk henv he by' hp u⟩

end Transactions

namespace Outcome.Updated

variable {o : Outcome Answer} {r : Records} {env : Surroundings} {by' : Caller} {e : Escrow}
  {u : UpdateRequest}

/-- An update that goes through answers with the terms asked for. -/
theorem result (h : o.Updated r env by' e (changesOf e.loaded u)) :
    o.result = .ok (.escrow { u.revise e.loaded with
      updatedAt := if changesOf e.loaded u = [] then e.updatedAt else env.now }) := by
  have hterms := foldl_changesOf e.loaded u
  by_cases hc : changesOf e.loaded u = []
  · rw [hc] at hterms
    rw [(h.idle hc).1, if_pos hc, ← hterms]
    rfl
  · rw [(h.recorded hc).result, if_neg hc, ← hterms]
    rfl

/-- The record that it leaves is read back with the terms asked for. -/
theorem escrow? (h : o.Updated r env by' e (changesOf e.loaded u)) :
    o.store.escrow? e.id = some { (u.revise e).loaded with
      updatedAt := if changesOf e.loaded u = [] then e.updatedAt else env.now } := by
  have hterms := loaded_foldl_changesOf e u
  rw [Store.escrow?, h.stored]
  by_cases hc : changesOf e.loaded u = []
  · rw [hc] at hterms
    rw [if_pos hc, if_pos hc, ← hterms]
    rfl
  · rw [if_neg hc, if_neg hc, ← hterms]
    rfl

end Outcome.Updated

/-- After any attempts on the records, and where nothing but the ledger can be out of order: an update of
a pending escrow by its creator goes through, and the record is read back with the terms asked for. Right
after it the same update, made by the same user, finds nothing to change, unless it gives a deadline with
an offset from UTC: the records stay as they are, to the time of the last update, there is no event and
nobody is notified. Only a deadline with an offset, whatever it is, is taken for a change each time, since
what is read back has none: it is recorded once more, with an event about it alone and a notification, and
the record differs from what it was by the time of the update. -/
theorem update_repeated (as : List Attempt) {e : Escrow} {env : Surroundings}
    (he : (Records.start.run as).store.stored? e.id = some e) (hs : e.status = .pending)
    (henv : env.InOrder) (address : Option String) (u : UpdateRequest) :
    let r := Records.start.run as
    let update (env : Surroundings) (address : Option String) : Attempt :=
      ⟨env, ⟨e.creator, address⟩, .task e.id (.update u)⟩
    let r' := r.after (update env address)
    let updatedAt := if changesOf e.loaded u = [] then e.updatedAt else env.now
    (r.outcome (update env address)).result =
        .ok (.escrow { u.revise e.loaded with updatedAt := updatedAt }) ∧
    ∃ e', r'.store.escrow? e.id = some e' ∧
      e' = { (u.revise e).loaded with updatedAt := updatedAt } ∧
      ∀ env' address',
        let again := r'.outcome (update env' address')
        (env'.InOrder → match u.zoned? with
          | none => again.result = .ok (.escrow e') ∧ again.Idle r'
          | some m =>
            again.Recorded r' env'.now { e' with deadline := some m, updatedAt := env'.now }
              (revisionDraft ⟨e.creator, address'⟩ e' [.deadline (some m)])
              (revisionNote [.deadline (some m)]) ∧
            again.store.escrow? e.id = some { e' with updatedAt := env'.now }) ∧
        (¬env'.InOrder → (∃ f, again.result = .error f) ∧ again.Idle r') := by
  intro r update r' updatedAt
  have hk : Kept r.store r.counters := Records.kept_run as
  have hfirst := Records.updated_of_creator hk henv he hs address u
  obtain ⟨d, hd, hread⟩ := Option.map_eq_some_iff.mp hfirst.escrow?
  have hid : d.id = e.id := show d.loaded.id = _ by rw [hread]; rfl
  have hcreator : d.creator = e.creator := show d.loaded.creator = _ by rw [hread]; rfl
  have hstatus : d.status = .pending := show d.loaded.status = _ by rw [hread]; exact hs
  have hchanges : changesOf d.loaded u = u.zoned?.toList.map fun m => .deadline (some m) := by
    rw [hread]
    exact changesOf_revise e u
  refine ⟨hfirst.result, d.loaded, ?_, hread, fun env' address' => ⟨fun henv' => ?_, fun henv' => ?_⟩⟩
  · show (Store.stored? _ e.id).map Escrow.loaded = _
    rw [show (r.after (update env address)).store.stored? e.id = some d from hd]
    rfl
  · have hagain := Records.updated_of_creator (Records.kept_after hk (update env address)) henv'
      (show _ = some d from hid ▸ hd) hstatus address' u
    rw [hchanges, hid, hcreator] at hagain
    cases hz : u.zoned? with
    | none =>
      rw [hz] at hagain
      exact hagain.idle rfl
    | some m =>
      rw [hz] at hagain
      refine ⟨hagain.recorded (List.cons_ne_nil _ []), ?_⟩
      have hdeadline : d.loaded.deadline = some m.withoutOffset := by
        rw [hread]
        show (u.deadline.getD e.deadline).map Moment.withoutOffset = _
        rw [UpdateRequest.deadline_of_zoned? hz]
        rfl
      show (Store.stored? _ e.id).map Escrow.loaded = _
      rw [← hid, hagain.stored]
      show some { d.loaded with deadline := some m.withoutOffset, updatedAt := env'.now } = _
      rw [← hdeadline]
  · obtain ⟨hf, -, hstore, hannounced⟩ := Operation.run_task_of_not_inOrder henv' e.id (.update u)
      ⟨e.creator, address'⟩ r'.store r'.store r'.counters
    exact ⟨hf, hstore, hannounced⟩

/-- The buyer gives the deadline of the sale anew, in the time of UTC. Told without an offset, it is the
deadline on record each time; told with the offset of UTC, it is a change each time. -/
theorem update_repeated_datedSale :
    let update (offset : Option Int) : Attempt := ⟨quietSurroundings, ⟨"buyer", none⟩,
      .task (Identifier.escrow 1) (.update ⟨none, none, some (some ⟨60 * Moment.second, offset⟩)⟩)⟩
    let r (offset : Option Int) := (Records.start.run (datedSale.take 1)).after (update offset)
    ((r none).outcome (update none)).Idle (r none) ∧
      ((r (some 0)).after (update (some 0))).store.events.length = (r (some 0)).store.events.length + 1 ∧
      ((r (some 0)).outcome (update (some 0))).announced ≠ none := by
  obtain ⟨e, he, hfacts⟩ : ∃ e, (Records.start.run (datedSale.take 1)).store.stored?
      (Identifier.escrow 1) = some e ∧
        (e.id, e.status, e.creator) = (Identifier.escrow 1, .pending, "buyer") :=
    Option.map_eq_some_iff.mp (by decide +kernel)
  obtain ⟨hid, hfacts⟩ := Prod.mk.inj hfacts
  obtain ⟨hs, hcreator⟩ := Prod.mk.inj hfacts
  have hrepeated := fun offset => update_repeated (datedSale.take 1) (hid ▸ he) hs
    quietSurroundings_inOrder none ⟨none, none, some (some ⟨60 * Moment.second, offset⟩)⟩
  simp only [hid, hcreator] at hrepeated
  generalize Records.start.run (datedSale.take 1) = start at hrepeated ⊢
  intro update r
  obtain ⟨-, e', -, -, hnone⟩ := hrepeated none
  obtain ⟨-, e'', -, -, hsome⟩ := hrepeated (some 0)
  obtain ⟨hrecorded, -⟩ := (hsome quietSurroundings none).1 quietSurroundings_inOrder
  refine ⟨((hnone quietSurroundings none).1 quietSurroundings_inOrder).2, ?_, ?_⟩
  · exact (congrArg List.length hrecorded.events).trans (List.length_append ..)
  · rw [hrecorded.announced]
    exact Option.some_ne_none _

end Custody
