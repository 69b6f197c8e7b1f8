import Custody.Proofs.Expiry

/-!
# What is overdue, and what expires

Two places judge whether a deadline has passed: the overview compares what two clocks show, to the
microsecond and whatever their distance from UTC, and an expiry compares seconds of UTC. By a clock of
UTC what expires is overdue, but an escrow whose deadline lies earlier in the same second is overdue and
does not expire; by any other clock each can hold without the other.

> `Store.overview_eq_ok`: the pages of an overview.
> `mem_iff_mem_pageOf`: what they hold together.
> `overdue_expires`: where the overview and an expiry differ.
-/

namespace Custody

/-! ## Pages -/

section Pages

variable {α : Type} {l : List α} {size : Int} {x : α}

theorem mem_of_mem_pageOf {start : Int} (h : x ∈ pageOf start size l) : x ∈ l := by
  unfold pageOf at h
  dsimp only at h
  split at h
  next => exact List.mem_of_mem_drop h
  next => exact List.mem_of_mem_drop (List.mem_of_mem_take h)

/-- What stands in a list stands on one of its pages, and nothing else stands on them. -/
theorem mem_iff_mem_pageOf (hsize : 0 < size) :
    x ∈ l ↔ ∃ page, 1 ≤ page ∧ x ∈ pageOf ((page - 1) * size) size l := by
  refine ⟨fun hx => ?_, fun ⟨page, _, h⟩ => mem_of_mem_pageOf h⟩
  obtain ⟨i, hi, rfl⟩ := List.mem_iff_getElem.mp hx
  obtain ⟨n, rfl⟩ := Int.eq_ofNat_of_zero_le (Int.le_of_lt hsize)
  have hn : 0 < n := by omega
  -- Its page is the one that its position falls on.
  refine ⟨(i / n : Nat) + 1, Int.le_add_of_nonneg_left (Int.natCast_nonneg _), ?_⟩
  have hstart : (((i / n : Nat) + 1 - 1 : Int) * (n : Int)).toNat = i / n * n := by
    rw [Int.add_sub_cancel, ← Int.natCast_mul, Int.toNat_natCast]
  have hdiv : i / n * n + i % n = i := Nat.div_add_mod' i n
  have hmod : i % n < n := Nat.mod_lt i hn
  unfold pageOf
  rw [if_neg (by omega), hstart, Int.toNat_natCast, List.mem_take_iff_getElem]
  refine ⟨i % n, ?_, ?_⟩
  · rw [List.length_drop]
    omega
  · simp only [List.getElem_drop, hdiv]

/-- What the store can count to, it pages. -/
theorem paged_of_fits {page : Int} (hstart : fitsWord ((page - 1) * size) = true)
    (hsize : fitsWord size = true) (l : List α) :
    paged page size l = .ok (pageOf ((page - 1) * size) size l) := by
  rw [paged, hstart, hsize]
  rfl

end Pages

/-! ## Overviews -/

/-- All that an overview shows, on whatever page. -/
def Store.overviewed (s : Store) (user : String) (q : OverviewQuery) (now : Moment) : List Escrow :=
  arrange q.column q.sortOrder (s.escrows.filter (q.selects user now))

theorem Store.mem_overviewed {s : Store} {user : String} {q : OverviewQuery} {now : Moment}
    {e : Escrow} : e ∈ s.overviewed user q now ↔ e ∈ s.escrows ∧ q.selects user now e = true :=
  mem_arrange.trans List.mem_filter

theorem OverviewItem.ofEscrow_eq_ok {e : Escrow} {i : OverviewItem} (h : ofEscrow e = .ok i) :
    i.escrow = e := by
  unfold ofEscrow at h
  dsimp only at h
  split at h
  next => cases h
  next =>
    split at h
    next =>
      cases h
      rfl
    next => cases h

/-- Finite amounts have a line. -/
theorem OverviewItem.ofEscrow_of_isFinite {e : Escrow} (h : e.amount.isFinite = true) :
    ∃ i, ofEscrow e = .ok i := by
  cases hamount : e.amount with
  | finite s c x =>
    unfold ofEscrow
    cases e.released <;> simp [hamount, Decimal.sub?, Decimal.zero, unshowable, Decimal.isFinite]
  | _ =>
    rw [hamount] at h
    cases h

/-- What is read from a list, one by one, is read from each of its elements. -/
theorem Except.mapM_eq_ok_iff {ε α β : Type} {f : α → Except ε β} {l : List α} {r : List β} :
    l.mapM f = .ok r ↔ List.Forall₂ (fun a b => f a = .ok b) l r := by
  induction l generalizing r with
  | nil =>
    constructor
    · rintro ⟨⟩
      exact .nil
    · rintro ⟨⟩
      rfl
  | cons a l ih =>
    simp only [List.mapM_cons, Except.bind_eq_ok_iff]
    constructor
    · rintro ⟨b, hb, rest, hrest, ⟨⟩⟩
      exact .cons hb (ih.mp hrest)
    · rintro (_ | ⟨hb, hrest⟩)
      exact ⟨_, hb, _, ih.mpr hrest, rfl⟩

section Lines

variable {es : List Escrow}

theorem map_escrow_of_lines {items : List OverviewItem}
    (h : (es.mapM fun e => OverviewItem.ofEscrow e.loaded) = .ok items) :
    items.map (·.escrow) = es.map Escrow.loaded := by
  induction Except.mapM_eq_ok_iff.mp h with
  | nil => rfl
  | cons hi hrest ih =>
    rw [List.map_cons, List.map_cons, OverviewItem.ofEscrow_eq_ok hi,
      ih (Except.mapM_eq_ok_iff.mpr hrest)]

theorem exists_lines (h : ∀ e ∈ es, e.loaded.amount.isFinite = true) :
    ∃ items, (es.mapM fun e => OverviewItem.ofEscrow e.loaded) = .ok items := by
  induction es with
  | nil => exact ⟨[], rfl⟩
  | cons e es ih =>
    obtain ⟨he, hes⟩ := List.forall_mem_cons.mp h
    obtain ⟨i, hi⟩ := OverviewItem.ofEscrow_of_isFinite he
    obtain ⟨items, hitems⟩ := ih hes
    refine ⟨i :: items, ?_⟩
    rw [List.mapM_cons, hi, hitems]
    rfl

end Lines

section Overviews

variable {s : Store} {user : String} {q : OverviewQuery} {most : Int} {now : Moment}

/-- A page of an overview has the lines of one of all that it shows. -/
theorem Store.lines_of_overview {o : Overview} (h : s.overview user q most now = .ok o) :
    ((pageOf ((q.page - 1) * min q.pageSize most) (min q.pageSize most)
      (s.overviewed user q now)).mapM fun e => OverviewItem.ofEscrow e.loaded) = .ok o.items := by
  unfold overview at h
  obtain ⟨rows, hrows, h⟩ := Except.bind_eq_ok_iff.mp h
  obtain ⟨items, hitems, h⟩ := Except.bind_eq_ok_iff.mp h
  obtain ⟨pages, hpages, h⟩ := Except.bind_eq_ok_iff.mp h
  cases h
  unfold paged at hrows
  dsimp only at hrows
  split at hrows
  next =>
    cases hrows
    exact hitems
  next => cases hrows

/-- So it is a page of all that the overview shows. -/
theorem Store.overview_eq_ok {o : Overview} (h : s.overview user q most now = .ok o) :
    o.items.map (·.escrow) = (pageOf ((q.page - 1) * min q.pageSize most) (min q.pageSize most)
      (s.overviewed user q now)).map Escrow.loaded := map_escrow_of_lines (lines_of_overview h)

/-- The store can give a page of finite amounts where it can count as far, and tells how much there is on
all of them. -/
theorem Store.overview_of_fits {pages : Int}
    (hfit : fitsWord ((q.page - 1) * min q.pageSize most) = true)
    (hfit' : fitsWord (min q.pageSize most) = true)
    (hamounts : ∀ e ∈ pageOf ((q.page - 1) * min q.pageSize most) (min q.pageSize most)
      (s.overviewed user q now), e.loaded.amount.isFinite = true)
    (hpages : pageCount (s.overviewed user q now).length (min q.pageSize most) = .ok pages) :
    ∃ items, s.overview user q most now =
      .ok ⟨items, (s.overviewed user q now).length, pages, q.page, min q.pageSize most⟩ := by
  have hpaged := paged_of_fits hfit hfit' (s.overviewed user q now)
  obtain ⟨items, hitems⟩ := exists_lines hamounts
  refine ⟨items, ?_⟩
  unfold overviewed at hpaged hitems hpages ⊢
  rw [length_arrange] at hpages ⊢
  unfold overview
  simp only [hpaged, hitems, hpages, bind, Except.bind]
  rfl

theorem Store.exists_overview (hsize : 0 < min q.pageSize most)
    (hfit : fitsWord ((q.page - 1) * min q.pageSize most) = true)
    (hfit' : fitsWord (min q.pageSize most) = true)
    (hamounts : ∀ e ∈ s.escrows, e.loaded.amount.isFinite = true) :
    ∃ o, s.overview user q most now = .ok o := by
  obtain ⟨pages, hpages⟩ : ∃ pages, pageCount (s.overviewed user q now).length
      (min q.pageSize most) = .ok pages := by
    unfold pageCount
    split
    next => exact ⟨_, rfl⟩
    next => exact ⟨_, by rw [if_neg (by omega)]⟩
  obtain ⟨items, hitems⟩ := overview_of_fits hfit hfit'
    (fun e he => hamounts e (mem_overviewed.mp (mem_of_mem_pageOf he)).1) hpages
  exact ⟨_, hitems⟩

end Overviews

/-- A page of an overview has a line about an escrow. -/
def Overview.Lists (o : Overview) (x : Identifier) : Prop := ∃ i ∈ o.items, i.escrow.id = x

/-- What a depositor asks for to see what is overdue. -/
def OverviewQuery.overdue (page pageSize : Int) (sortBy : OverviewSort) (sortOrder : SortOrder) :
    OverviewQuery where
  role := .depositor
  status := some .expired
  token := none
  createdFrom := none
  createdTo := none
  page := page
  pageSize := pageSize
  sortBy := sortBy
  sortOrder := sortOrder

/-- An open escrow with a deadline. -/
structure Escrow.OpenUntil (e : Escrow) (d : Moment) : Prop where
  isOpen : e.status = .pending ∨ e.status = .active
  deadline : e.deadline = some d

/-- There is one deadline. -/
theorem Escrow.OpenUntil.unique {e : Escrow} {d d' : Moment} (h : e.OpenUntil d)
    (h' : e.OpenUntil d') : d = d' := Option.some.inj (h.deadline.symm.trans h'.deadline)

theorem Escrow.overdue_iff {e : Escrow} {now : Moment} :
    e.overdue now = true ↔ ∃ d, e.OpenUntil d ∧ d.wall < now.wall := by
  unfold overdue
  rw [Bool.and_eq_true, Option.any_eq_true]
  constructor
  · rintro ⟨⟨d, hd, hlt⟩, hopen⟩
    exact ⟨d, ⟨by simpa using hopen, hd⟩, by simpa using hlt⟩
  · rintro ⟨d, ⟨hopen, hd⟩, hlt⟩
    exact ⟨⟨d, hd, by simpa using hlt⟩, by simpa using hopen⟩

section Depositors

variable {s : Store} {e : Escrow} {most pageSize : Int} {sortBy : OverviewSort}
  {sortOrder : SortOrder} {now : Moment}

/-- A depositor is shown what is overdue of the own escrows. -/
theorem Store.mem_overviewed_overdue {user : String} {page : Int} :
    e ∈ s.overviewed user (.overdue page pageSize sortBy sortOrder) now ↔
      e ∈ s.escrows ∧ e.creator = user ∧ e.overdue now = true := by
  refine mem_overviewed.trans (and_congr_right fun _ => ?_)
  simp [OverviewQuery.selects, OverviewQuery.overdue, Escrow.seenFrom, Escrow.hasOverviewStatus]

/-- Of escrows with numbers of their own, the pages list those that are shown. -/
theorem Store.lists_iff (hdistinct : (s.escrows.map (·.id)).Nodup) (he : e ∈ s.escrows)
    {user : String} {q : OverviewQuery} {o : Overview} (h : s.overview user q most now = .ok o) :
    o.Lists e.id ↔ e ∈ pageOf ((q.page - 1) * min q.pageSize most) (min q.pageSize most)
      (s.overviewed user q now) := by
  have hitems := overview_eq_ok h
  constructor
  · rintro ⟨i, hi, hid⟩
    obtain ⟨a, ha, hloaded⟩ := List.mem_map.mp (hitems ▸ List.mem_map_of_mem hi)
    have hmem := (mem_overviewed.mp (mem_of_mem_pageOf ha)).1
    obtain rfl : a = e := List.inj_on_of_nodup_map hdistinct hmem he (by
      rw [← hid, ← hloaded]
      rfl)
    exact ha
  · intro hpage
    obtain ⟨i, hi, hloaded⟩ := List.mem_map.mp (hitems ▸ List.mem_map_of_mem hpage)
    exact ⟨i, hi, by rw [hloaded]; rfl⟩

end Depositors

/-! ## Both judgements -/

/-- What expires on record: an open escrow whose deadline lies in an earlier second of UTC than the time,
one that a clock of UTC can show. -/
def Escrow.Due (e : Escrow) (now : Moment) : Prop :=
  Moment.wallInRange now.instant = true ∧
    ∃ d, e.OpenUntil d ∧ Moment.floorSecond d.wall < Moment.floorSecond now.instant

namespace Escrow

variable {e : Escrow} {now : Moment}

theorem overdue_not_due_iff : e.overdue now = true ∧ ¬e.Due now ↔
    ∃ d, e.OpenUntil d ∧ d.wall < now.wall ∧
      (Moment.wallInRange now.instant = true →
        Moment.floorSecond now.instant ≤ Moment.floorSecond d.wall) := by
  rw [overdue_iff]
  constructor
  · rintro ⟨⟨d, hd, hlt⟩, hnot⟩
    exact ⟨d, hd, hlt, fun hnow => Int.not_lt.mp fun h => hnot ⟨hnow, d, hd, h⟩⟩
  · rintro ⟨d, hd, hlt, hle⟩
    refine ⟨⟨d, hd, hlt⟩, ?_⟩
    rintro ⟨hnow, d', hd', hover⟩
    obtain rfl := hd.unique hd'
    exact absurd hover (Int.not_lt.mpr (hle hnow))

theorem due_not_overdue_iff : e.Due now ∧ ¬e.overdue now = true ↔
    Moment.wallInRange now.instant = true ∧ ∃ d, e.OpenUntil d ∧ now.wall ≤ d.wall ∧
      Moment.floorSecond d.wall < Moment.floorSecond now.instant := by
  rw [overdue_iff]
  constructor
  · rintro ⟨⟨hnow, d, hd, hover⟩, hnot⟩
    exact ⟨hnow, d, hd, Int.not_lt.mp fun hlt => hnot ⟨d, hd, hlt⟩, hover⟩
  · rintro ⟨hnow, d, hd, hle, hover⟩
    refine ⟨⟨hnow, d, hd, hover⟩, ?_⟩
    rintro ⟨d', hd', hlt⟩
    obtain rfl := hd.unique hd'
    exact absurd hlt (Int.not_lt.mpr hle)

section Utc

variable (hutc : now.instant = now.wall)
include hutc

/-- By a clock of UTC, what is in a later second is later. -/
theorem overdue_of_due (h : e.Due now) : e.overdue now = true := by
  obtain ⟨-, d, hd, hover⟩ := h
  refine overdue_iff.mpr ⟨d, hd, Int.not_le.mp fun hle => ?_⟩
  rw [hutc] at hover
  exact absurd hover (Int.not_lt.mpr (Moment.floorSecond_mono hle))

/-- What is later may be in the same second. -/
theorem overdue_not_due_iff_of_utc (hnow : Moment.wallInRange now.wall = true) :
    e.overdue now = true ∧ ¬e.Due now ↔ ∃ d, e.OpenUntil d ∧ d.wall < now.wall ∧
      Moment.floorSecond d.wall = Moment.floorSecond now.wall := by
  rw [overdue_not_due_iff, hutc]
  refine exists_congr fun d => and_congr_right fun _ => and_congr_right fun hlt => ?_
  have hle := Moment.floorSecond_mono (Int.le_of_lt hlt)
  exact ⟨fun h => Int.le_antisymm hle (h hnow), fun h _ => Int.le_of_eq h.symm⟩

end Utc

end Escrow

/-- An expiry succeeds on what is due. -/
theorem Records.expires_iff {r : Records} {env : Surroundings} {e : Escrow}
    (hk : Kept r.store r.counters) (ht : r.store.Timely) (henv : env.InOrder) (by' : Caller)
    (reason : Option String) (now : Moment) (he : e ∈ r.store.escrows) :
    (∃ a, (r.outcome ⟨env, by', .task e.id (.expire reason (some now))⟩).result = .ok a) ↔
      e.Due now := by
  have hread : r.store.escrow? e.id = some e.loaded :=
    Store.escrow?_of_stored? ((Store.stored?_eq_some_iff hk.distinct).mpr he)
  rw [(expires hk ht henv by' reason (some now) hread).iff]
  refine and_congr_right fun _ => ?_
  constructor
  · rintro ⟨m, hopen, hdeadline, hover⟩
    obtain ⟨d, hd, rfl⟩ := Option.map_eq_some_iff.mp hdeadline
    rw [Moment.instant_withoutOffset] at hover
    exact ⟨d, ⟨hopen, hd⟩, hover⟩
  · rintro ⟨d, ⟨hopen, hd⟩, hover⟩
    refine ⟨d.withoutOffset, hopen, Option.map_eq_some_iff.mpr ⟨d, hd, rfl⟩, ?_⟩
    rw [Moment.instant_withoutOffset]
    exact hover

/-- After any attempts with moments that a clock can show, the overview of a depositor lists an open
escrow when the clock of the time shows more than that of the deadline, and the escrow expires when its
deadline lies in an earlier second of UTC. So one can be listed that does not expire, and one can expire
that is not listed; by a clock of UTC only the first, and just in the second of the deadline. -/
theorem overdue_expires {as : List Attempt} (has : ∀ a ∈ as, a.op.Dated) {env : Surroundings}
    (henv : env.InOrder) (by' : Caller) (reason : Option String) (now : Moment) {e : Escrow}
    (he : e ∈ (Records.start.run as).store.escrows) {pageSize most : Int}
    (hsize : 0 < min pageSize most) (sortBy : OverviewSort) (sortOrder : SortOrder) :
    let r := Records.start.run as
    let page (n : Int) :=
      r.store.overview e.creator (.overdue n pageSize sortBy sortOrder) most now
    let listed : Prop := e.overdue now = true
    let expires : Prop :=
      ∃ a, (r.outcome ⟨env, by', .task e.id (.expire reason (some now))⟩).result = .ok a
    ((∀ n o, page n = .ok o → o.Lists e.id → listed) ∧
      (listed → ∃ n, 1 ≤ n ∧ ∀ o, page n = .ok o → o.Lists e.id) ∧
      ((∀ a ∈ r.store.escrows, a.loaded.amount.isFinite = true) →
        fitsWord (min pageSize most) = true →
        ∀ n, fitsWord ((n - 1) * min pageSize most) = true → ∃ o, page n = .ok o)) ∧
    (listed ∧ ¬expires ↔ ∃ d, e.OpenUntil d ∧ d.wall < now.wall ∧
      (Moment.wallInRange now.instant = true →
        Moment.floorSecond now.instant ≤ Moment.floorSecond d.wall)) ∧
    (expires ∧ ¬listed ↔ Moment.wallInRange now.instant = true ∧ ∃ d, e.OpenUntil d ∧
      now.wall ≤ d.wall ∧ Moment.floorSecond d.wall < Moment.floorSecond now.instant) ∧
    (now.instant = now.wall → Moment.wallInRange now.wall = true → (expires → listed) ∧
      (listed ∧ ¬expires ↔ ∃ d, e.OpenUntil d ∧ d.wall < now.wall ∧
        Moment.floorSecond d.wall = Moment.floorSecond now.wall)) := by
  intro r page listed expires
  have hk : Kept r.store r.counters := Records.kept_run as
  have hexpires : expires ↔ e.Due now :=
    Records.expires_iff hk (Records.timely_run has) henv by' reason now he
  refine ⟨⟨fun n o ho hlists => ?_, fun h => ?_, fun hamounts hfit n hfit' =>
    Store.exists_overview hsize hfit' hfit hamounts⟩, ?_, ?_, fun hutc hnow => ⟨fun h => ?_, ?_⟩⟩
  · have hpage := (Store.lists_iff hk.distinct he ho).mp hlists
    exact (Store.mem_overviewed_overdue.mp (mem_of_mem_pageOf hpage)).2.2
  · have hmem : e ∈ r.store.overviewed e.creator (.overdue 1 pageSize sortBy sortOrder) now :=
      Store.mem_overviewed_overdue.mpr ⟨he, rfl, h⟩
    obtain ⟨n, hn, hmem⟩ := (mem_iff_mem_pageOf hsize).mp hmem
    exact ⟨n, hn, fun o ho => (Store.lists_iff hk.distinct he ho).mpr hmem⟩
  · rw [hexpires]
    exact Escrow.overdue_not_due_iff
  · rw [hexpires]
    exact Escrow.due_not_overdue_iff
  · exact Escrow.overdue_of_due hutc (hexpires.mp h)
  · rw [hexpires]
    exact Escrow.overdue_not_due_iff_of_utc hutc hnow

/-- Half a second after its deadline the sale is overdue, and it does not expire. -/
theorem overdue_expires_datedSale :
    let r := Records.start.run datedSale
    let now : Moment := ⟨60 * Moment.second + 500000, none⟩
    ∃ e ∈ r.store.escrows,
      (∃ o, r.store.overview e.creator (.overdue 1 20 .createdAt .desc) 100 now = .ok o ∧
        o.Lists e.id) ∧
      ∀ a, (r.outcome ⟨quietSurroundings, ⟨"passer-by", none⟩,
        .task e.id (.expire none (some now))⟩).result ≠ .ok a := by
  intro r now
  obtain ⟨e, he, hid, hcreator, hstatus, hdeadline⟩ : ∃ e ∈ r.store.escrows,
      e.id = Identifier.escrow 1 ∧ e.creator = "buyer" ∧ e.status = .active ∧
        e.deadline = some ⟨60 * Moment.second, none⟩ := by
    decide +kernel
  obtain ⟨⟨-, -, hpages⟩, -, -, hutc⟩ := overdue_expires datedSale_dated quietSurroundings_inOrder
    ⟨"passer-by", none⟩ none now he (show (0 : Int) < min 20 100 by decide) .createdAt .desc
  obtain ⟨o, ho⟩ : ∃ o, r.store.overview e.creator (.overdue 1 20 .createdAt .desc) 100 now = .ok o :=
    hpages (by decide +kernel) (by decide) 1 (by decide)
  have hshown : (r.store.overview "buyer" (.overdue 1 20 .createdAt .desc) 100 now).toOption.map
      (fun o => o.items.map (·.escrow.id)) = some [Identifier.escrow 1] := by
    decide +kernel
  rw [← hcreator, ho] at hshown
  have hids : o.items.map (·.escrow.id) = [Identifier.escrow 1] := Option.some.inj hshown
  obtain ⟨i, hi, heq⟩ := List.mem_map.mp (hids ▸ List.mem_singleton_self (Identifier.escrow 1))
  obtain ⟨-, hnever⟩ := (hutc rfl (by decide)).2.mpr
    ⟨_, ⟨.inr hstatus, hdeadline⟩, by decide, by decide⟩
  exact ⟨e, he, ⟨o, ho, i, hi, heq.trans hid.symm⟩, fun a ha => hnever ⟨a, ha⟩⟩

end Custody
