import Custody.Proofs.Column
import Custody.Proofs.Paging

/-!
# What an overview shows

An overview chooses escrows by their rows, and shows lines that are made of what is read back. The two
agree: a row is chosen just if its line is what was asked for, by the sides of the escrow, its status, its
asset and the time of its creation. With amounts for which the column has room every line can be shown, and
what was released and what remains are together all that there is.

> `Records.created_run`: every record is of a creation.
> `Escrow.ofEscrow_loaded`: the line of an escrow.
> `selects_iff_satisfies`: rows are chosen as lines are asked for.
> `overview_exact`: what the pages of an overview hold.
-/

namespace Custody

/-! ## Creations -/

/-- Every record is of one of the attempts, a creation, and still has its time and its amount. -/
theorem Records.created_run (as : List Attempt) {e : Escrow}
    (he : e ∈ (start.run as).store.escrows) :
    ∃ a ∈ as, ∃ n, a.op = .create n ∧ e.createdAt = a.env.now ∧ e.amount = n.amount := by
  induction as using List.reverseRec generalizing e with
  | nil => cases he
  | append_singleton as a ih =>
    have hbefore : ∀ d ∈ (start.run as).store.escrows, ∃ b ∈ as ++ [a], ∃ n, b.op = .create n ∧
        d.createdAt = b.env.now ∧ d.amount = n.amount := fun d hd => by
      obtain ⟨b, hb, hmade⟩ := ih hd
      exact ⟨b, List.mem_append_left _ hb, hmade⟩
    rw [run_concat] at he
    unfold after outcome at he
    have hcomes := a.op.run_comes a.env (kept_run as).sound a.caller (start.run as).store
      (start.run as).counters
    generalize a.op.run a.env a.caller _ _ _ = o at he hcomes
    cases hcomes with
    | failed h =>
      dsimp only at he
      rw [h.store] at he
      exact hbefore e he
    | idle => exact hbefore e he
    | created hop _ _ hd _ =>
      rcases List.mem_append.mp he with he | he
      · exact hbefore e he
      · refine ⟨a, by simp, _, hop, ?_⟩
        rw [List.mem_singleton.mp he, hd]
        exact ⟨rfl, rfl⟩
    | @done o d w paid _ h answer =>
      -- Work rewrites records, but neither the time of a creation nor its amount.
      change e ∈ o.store.escrows at he
      rw [h.store, Store.escrows_enterAll] at he
      obtain ⟨b, hb, rfl⟩ := List.mem_map.mp he
      have hlasts : b.Lasts (w.onRecord a.env.now d.id b) := by
        unfold Writes.onRecord
        split
        next => exact w.lasts_view a.env.now b
        next => exact .refl b
      rw [hlasts.createdAt, hlasts.amount]
      exact hbefore b hb

/-! ## Amounts that are read back -/

namespace Escrow

variable {e : Escrow}

/-- An amount that is not too large is read back in units of the column, with few enough digits. -/
theorem exists_loaded_amount (hpositive : 0 < e.amount.value) (hbelow : e.amount.value < 10 ^ 13) :
    ∃ n, e.loaded.amount = .finite false n (-7) ∧ Decimal.digitCount n ≤ 28 := by
  obtain ⟨c, x, hamount, hc⟩ := Decimal.value_pos_iff.mp hpositive
  rw [hamount] at hbelow
  change Decimal.scaled c x < 10 ^ 13 at hbelow
  have hle := (Decimal.scaled_lt_pow_iff (k := 13) hc).mp (by exact_mod_cast hbelow)
  obtain ⟨m, y, hbinary, hnear⟩ :=
    Binary64.exists_ofScientific_eq (e := x) hc (by omega) false
  obtain ⟨n, hback, hn⟩ := Decimal.exists_ofBinary64_eq false m y
  refine ⟨n, ?_, (Decimal.digitCount_le_iff (by decide)).mpr ?_⟩
  · rw [loaded, hamount, Decimal.toBinary64, hbinary, hback]
  · have hsmall : (n : ℚ) < (10 ^ 28 : Nat) := by
      push_cast
      linarith
    exact_mod_cast hsmall

/-- So it can be shown. -/
theorem isFinite_loaded (hpositive : 0 < e.amount.value) (hbelow : e.amount.value < 10 ^ 13) :
    e.loaded.amount.isFinite = true := by
  obtain ⟨n, hamount, -⟩ := exists_loaded_amount hpositive hbelow
  rw [hamount]
  rfl

/-- The line of an escrow: all of its amount has been released, or nothing. -/
def line (e : Escrow) : OverviewItem :=
  if e.released then ⟨e.loaded, e.loaded.amount, .finite false 0 (-7)⟩
  else ⟨e.loaded, Decimal.zero, e.loaded.amount⟩

theorem escrow_line (e : Escrow) : e.line.escrow = e.loaded := by
  unfold line
  split <;> rfl

/-- It is the line that an overview shows. -/
theorem ofEscrow_loaded (h : FitsColumn e.amount.value) :
    OverviewItem.ofEscrow e.loaded = .ok e.line := by
  obtain ⟨n, hamount, hdigits⟩ := exists_loaded_amount h.positive h.below
  have hleast : Decimal.Context.usual.leastPlace = -1000026 := rfl
  have hprecision : Decimal.Context.usual.precision = 28 := rfl
  have hkept : Decimal.rounded .usual n (-7) = (n, -7) := by
    unfold Decimal.rounded Decimal.excess
    exact if_pos (by omega)
  have hrest : (Decimal.finite false n (-7)).sub? Decimal.zero = some (.finite false n (-7)) := by
    simp [Decimal.sub?, Decimal.zero, hkept]
  have hnone : (Decimal.finite false n (-7)).sub? (.finite false n (-7)) =
      some (.finite false 0 (-7)) := by
    simp only [Decimal.sub?, Int.min_self, Int.sub_self]
    rfl
  have hreleased : e.loaded.released = e.released := rfl
  unfold OverviewItem.ofEscrow line
  rw [hreleased, hamount]
  cases e.released with
  | true =>
    simp only [if_true, hnone]
    rfl
  | false =>
    simp only [Bool.false_eq_true, if_false, hrest]
    rfl

theorem released_line (hs : e.Sound) : e.line.released =
    if e.line.escrow.status = .completed then e.line.escrow.amount else Decimal.zero := by
  rw [escrow_line, loaded_status]
  unfold line
  by_cases hr : e.released = true
  · rw [if_pos hr, if_pos (hs.released_iff.mp hr)]
  · rw [if_neg hr, if_neg (mt hs.released_iff.mpr hr)]

/-- What has been released and what remains are the whole. -/
theorem released_add_remaining (e : Escrow) :
    e.line.released.value + e.line.remaining.value = e.line.escrow.amount.value := by
  have hnothing (x : Int) : (Decimal.finite false 0 x).value = 0 := Decimal.scaled_zero x
  rw [escrow_line]
  unfold line
  split
  next => simp only [hnothing, add_zero]
  next => simp only [Decimal.zero, hnothing, zero_add]

/-- The recipient is the seller. -/
theorem Sound.recipient?_eq_some_iff (hs : e.Sound) {u : String} :
    e.recipient? = some u ↔ ⟨u, .seller⟩ ∈ e.parties := by
  refine ⟨mem_parties_of_recipient?, fun h => ?_⟩
  cases hr : e.recipient? with
  | some b => rw [hs.seller_unique h (mem_parties_of_recipient? hr)]
  | none =>
    rw [recipient?, Custody.recipient?, Option.map_eq_none_iff, List.find?_eq_none] at hr
    exact absurd (decide_eq_true rfl) (hr _ h)

end Escrow

/-! ## What is asked for -/

namespace OverviewItem

variable (i : OverviewItem) (user : String) (now : Moment)

/-- The side of an escrow that its line shows a user on. -/
def SeenFrom : OverviewRole → Prop
  | .depositor => i.escrow.creator = user
  | .recipient => i.escrow.recipient? = some user
  | .any => i.escrow.creator = user ∨ i.escrow.recipient? = some user

/-- What a status of the overview means for a line. -/
def HasStatus : OverviewStatus → Prop
  | .created | .pending => i.escrow.status = .pending
  | .active => i.escrow.status = .active
  | .completed => i.escrow.status = .completed
  | .cancelled => i.escrow.status = .cancelled
  | .disputed => i.escrow.status = .disputed
  | .expired => (i.escrow.status = .pending ∨ i.escrow.status = .active) ∧
      ∃ d, i.escrow.deadline = some d ∧ d.instant < now.instant

/-- A line is one of those that a user asks for. -/
structure Satisfies (q : OverviewQuery) : Prop where
  side : i.SeenFrom user q.role
  status : ∀ w, q.status = some w → i.HasStatus now w
  token : ∀ t, q.token = some t → t ≠ "" → i.escrow.asset = t
  since : ∀ m, q.createdFrom = some m → m.instant ≤ i.escrow.createdAt.instant
  till : ∀ m, q.createdTo = some m → i.escrow.createdAt.instant ≤ m.instant

end OverviewItem

section Selection

variable {e : Escrow} {user : String} {now : Moment} {q : OverviewQuery}

theorem seenFrom_iff (hs : e.Sound) (r : OverviewRole) :
    e.seenFrom user r = true ↔ e.line.SeenFrom user r := by
  have hrecipient : e.loaded.recipient? = e.recipient? := rfl
  have hseller : e.involves user (some .seller) = true ↔ e.recipient? = some user := by
    rw [hs.recipient?_eq_some_iff, Escrow.involves, List.contains_iff_mem, mem_rolesFor]
  unfold Escrow.seenFrom OverviewItem.SeenFrom
  rw [e.escrow_line, hrecipient]
  cases r with
  | depositor => exact decide_eq_true_iff
  | recipient => exact hseller
  | any =>
    rw [Bool.or_eq_true, hseller]
    exact or_congr_left decide_eq_true_iff

theorem hasOverviewStatus_iff (hnow : now.instant = now.wall) (w : OverviewStatus) :
    e.hasOverviewStatus now w = true ↔ e.line.HasStatus now w := by
  unfold Escrow.hasOverviewStatus OverviewItem.HasStatus
  rw [e.escrow_line]
  cases w with
  | expired =>
    -- The row goes by the wall clock, and what is read back of a deadline has no other.
    rw [Escrow.overdue_iff, hnow]
    constructor
    · rintro ⟨d, ⟨hopen, hd⟩, hlt⟩
      exact ⟨hopen, d.withoutOffset, Option.map_eq_some_iff.mpr ⟨d, hd, rfl⟩,
        by rwa [Moment.instant_withoutOffset]⟩
    · rintro ⟨hopen, d', hd', hlt⟩
      obtain ⟨d, hd, rfl⟩ := Option.map_eq_some_iff.mp hd'
      rw [Moment.instant_withoutOffset] at hlt
      exact ⟨d, ⟨hopen, hd⟩, hlt⟩
  | _ => exact decide_eq_true_iff

/-- A row is chosen just if its line is asked for. -/
theorem selects_iff_satisfies (hs : e.Sound) (hcreated : e.createdAt.instant = e.createdAt.wall)
    (hnow : now.instant = now.wall) (hfrom : ∀ m, q.createdFrom = some m → m.instant = m.wall)
    (hto : ∀ m, q.createdTo = some m → m.instant = m.wall) :
    q.selects user now e = true ↔ e.line.Satisfies user now q := by
  have hasset : e.line.escrow.asset = e.asset := by rw [e.escrow_line]; rfl
  have hstamp : e.line.escrow.createdAt.instant = e.createdAt.wall := by
    rw [e.escrow_line, ← hcreated]
    rfl
  simp only [OverviewQuery.selects, Bool.and_eq_true, Option.all_eq_true, Bool.or_eq_true,
    decide_eq_true_iff, seenFrom_iff hs, hasOverviewStatus_iff hnow, ← hasset, ← hstamp]
  constructor
  · rintro ⟨⟨⟨⟨hside, hstatus⟩, htoken⟩, hsince⟩, htill⟩
    exact ⟨hside, hstatus, fun t ht hne => (htoken t ht).resolve_left hne,
      fun m hm => hfrom m hm ▸ hsince m hm, fun m hm => hto m hm ▸ htill m hm⟩
  · rintro ⟨hside, hstatus, htoken, hsince, htill⟩
    exact ⟨⟨⟨⟨hside, hstatus⟩, fun t ht => or_iff_not_imp_left.mpr (htoken t ht)⟩,
      fun m hm => hfrom m hm ▸ hsince m hm⟩, fun m hm => hto m hm ▸ htill m hm⟩

end Selection

/-! ## Pages -/

section Pages

variable {s : Store} {user : String} {k n : Nat}

theorem map_pageOf {α β : Type} (f : α → β) (start size : Int) (l : List α) :
    (pageOf start size l).map f = pageOf start size (l.map f) := by
  unfold pageOf
  dsimp only
  split <;> simp only [List.map_take, List.map_drop]

theorem lines_eq_map {es : List Escrow} (h : ∀ e ∈ es, FitsColumn e.amount.value) :
    (es.mapM fun e => OverviewItem.ofEscrow e.loaded) = .ok (es.map Escrow.line) := by
  rw [Except.mapM_eq_ok_iff, List.forall₂_map_right_iff, List.forall₂_same]
  exact fun e he => Escrow.ofEscrow_loaded (h e he)

/-- The lines of an overview are those of the escrows that it chooses. -/
theorem Store.mem_map_line_iff {q : OverviewQuery} {now : Moment} {i : OverviewItem}
    (hfits : ∀ e ∈ s.escrows, FitsColumn e.amount.value) :
    i ∈ (s.overviewed user q now).map Escrow.line ↔ ∃ e ∈ s.escrows,
      OverviewItem.ofEscrow e.loaded = .ok i ∧ q.selects user now e = true := by
  rw [List.mem_map]
  refine exists_congr fun e => ?_
  rw [mem_overviewed, and_assoc]
  refine and_congr_right fun hmem => ?_
  rw [Escrow.ofEscrow_loaded (hfits e hmem), Except.ok.injEq, and_comm]

/-- No escrow has two of them. -/
theorem Store.nodup_map_line {q : OverviewQuery} {now : Moment}
    (hdistinct : (s.escrows.map (·.id)).Nodup) :
    (((s.overviewed user q now).map Escrow.line).map (·.escrow.id)).Nodup := by
  have harranged := arranged_arrange q.column q.sortOrder
    ((List.filter_sublist (p := q.selects user now).map (·.id)).nodup hdistinct)
  have hids : ∀ e : Escrow, e.line.escrow.id = e.id := by
    intro e
    rw [e.escrow_line]
    rfl
  simp only [List.map_map, Function.comp_def, hids]
  exact harranged.nodup

/-- A page of an overview, line by line. -/
theorem Store.overview_lines {q : OverviewQuery} {most : Int} {now : Moment}
    (hpage : q.page = k + 1) (hsize : min q.pageSize most = n) (hn : 0 < n) (hword : n < 2 ^ 63)
    (hoffset : k * n < 2 ^ 63) (hfits : ∀ e ∈ s.escrows, FitsColumn e.amount.value) :
    let items := (s.overviewed user q now).map Escrow.line
    s.overview user q most now =
      .ok ⟨pageOf (k * n : Nat) n items, items.length, pagesFor items.length n, k + 1, n⟩ := by
  intro items
  have hmem : ∀ e ∈ pageOf (k * n : Nat) n (s.overviewed user q now), FitsColumn e.amount.value :=
    fun e he => hfits e (Store.mem_overviewed.mp (mem_of_mem_pageOf he)).1
  obtain ⟨lines, hlines, -⟩ := overview_of_offset hpage hsize hn hword hoffset fun e he =>
    Escrow.isFinite_loaded (hmem e he).positive (hmem e he).below
  have hstart : (q.page - 1) * min q.pageSize most = (k * n : Nat) := by
    rw [hpage, hsize, Int.add_sub_cancel, Int.natCast_mul]
  -- The lines that are there are those of the escrows on the page.
  have hread := lines_of_overview hlines
  rw [hstart, hsize, lines_eq_map hmem] at hread
  obtain rfl : _ = lines := Except.ok.inj hread
  rw [hlines, map_pageOf, List.length_map]

end Pages

/-- After any attempts by clocks of UTC, of escrows with amounts for which the column has room: each of
them has a line, and it is chosen just if its line is what was asked for. The recipient of a line is the
seller, or nobody where there is none; what was released and what remains are the whole amount, and it was
released where the escrow is completed. On the pages of an overview, as far as the store can count, there
are the lines that were asked for, each of them once, and they tell how many there are. -/
theorem overview_exact {as : List Attempt} (hclock : ∀ a ∈ as, a.env.now.instant = a.env.now.wall)
    (hfits : ∀ e ∈ (Records.start.run as).store.escrows, FitsColumn e.amount.value) (user : String)
    {q : OverviewQuery} (hfrom : ∀ m, q.createdFrom = some m → m.instant = m.wall)
    (hto : ∀ m, q.createdTo = some m → m.instant = m.wall) {now : Moment}
    (hnow : now.instant = now.wall) :
    let s := (Records.start.run as).store
    (∀ e ∈ s.escrows, ∃ i, OverviewItem.ofEscrow e.loaded = .ok i ∧ i.escrow = e.loaded ∧
      (q.selects user now e = true ↔ i.Satisfies user now q) ∧
      (∀ u, i.escrow.recipient? = some u ↔ ⟨u, .seller⟩ ∈ e.parties) ∧
      i.released.value + i.remaining.value = i.escrow.amount.value ∧
      i.released = if i.escrow.status = .completed then i.escrow.amount else Decimal.zero) ∧
    ∀ (most : Int) (n : Nat), min q.pageSize most = n → 0 < n → n < 2 ^ 63 → ∃ items page,
      (∀ i, i ∈ items ↔ ∃ e ∈ s.escrows, OverviewItem.ofEscrow e.loaded = .ok i ∧
        i.Satisfies user now q) ∧
      (items.map (·.escrow.id)).Nodup ∧ Paged items n page ∧
      ∀ k : Nat, k * n < 2 ^ 63 → s.overview user { q with page := k + 1 } most now =
        .ok ⟨page k, items.length, pagesFor items.length n, k + 1, n⟩ := by
  intro s
  have hk : Kept s (Records.start.run as).counters := Records.kept_run as
  have hchosen : ∀ e ∈ s.escrows, q.selects user now e = true ↔ e.line.Satisfies user now q := by
    intro e he
    obtain ⟨a, ha, n, -, hcreated, -⟩ := Records.created_run as he
    refine selects_iff_satisfies (hk.sound e he) ?_ hnow hfrom hto
    rw [hcreated]
    exact hclock a ha
  refine ⟨fun e he => ⟨e.line, Escrow.ofEscrow_loaded (hfits e he), e.escrow_line, hchosen e he,
    fun u => ?_, e.released_add_remaining, Escrow.released_line (hk.sound e he)⟩,
    fun most n hsize hn hword => ?_⟩
  · rw [e.escrow_line]
    exact (hk.sound e he).recipient?_eq_some_iff
  · refine ⟨(s.overviewed user q now).map Escrow.line, _, fun i => ?_,
      Store.nodup_map_line hk.distinct, paged_pageOf hn _, fun k hoffset =>
        Store.overview_lines (q := { q with page := k + 1 }) rfl hsize hn hword hoffset hfits⟩
    -- A line of an escrow is its only one, so what was asked of the row can be asked of the line.
    refine (Store.mem_map_line_iff hfits).trans (exists_congr fun e => and_congr_right fun he =>
      and_congr_right fun hline => ?_)
    rw [hchosen e he, Except.ok.inj ((Escrow.ofEscrow_loaded (hfits e he)).symm.trans hline)]

theorem datedSale_fitsColumn :
    ∀ e ∈ (Records.start.run datedSale).store.escrows, FitsColumn e.amount.value := by
  have hamounts : ∀ e ∈ (Records.start.run datedSale).store.escrows,
      e.amount = .finite false 100 0 := by
    decide +kernel
  intro e he
  have hvalue : e.amount.value = 100 := by
    rw [hamounts e he]
    norm_num [Decimal.value, Decimal.scaled]
  rw [hvalue]
  exact ⟨by norm_num, by norm_num, 100 * 10 ^ 7, by norm_num⟩

/-- What the seller asks for a minute after the sale: what is overdue of one asset. -/
def sellerQuery : OverviewQuery :=
  ⟨.recipient, some .expired, some "XLM", some (Moment.utc 0), none, 1, 20, .createdAt, .asc⟩

/-- The line of the sale is what was asked for, and it is on the only page. -/
theorem overview_exact_datedSale :
    let s := (Records.start.run datedSale).store
    ∃ i items, i.Satisfies "seller" (Moment.utc (61 * Moment.second)) sellerQuery ∧
      i.released.value + i.remaining.value = i.escrow.amount.value ∧ i ∈ items ∧
      s.overview "seller" sellerQuery 100 (Moment.utc (61 * Moment.second)) =
        .ok ⟨items, 1, 1, 1, 20⟩ := by
  intro s
  have hclock : ∀ a ∈ datedSale, a.env.now.instant = a.env.now.wall := by decide +kernel
  have hfrom : ∀ m, sellerQuery.createdFrom = some m → m.instant = m.wall := by
    rintro _ ⟨⟩
    decide
  have hto : ∀ m, sellerQuery.createdTo = some m → m.instant = m.wall := nofun
  obtain ⟨hlines, hpages⟩ := overview_exact hclock datedSale_fitsColumn "seller" hfrom hto
    (Moment.instant_utc (61 * Moment.second))
  obtain ⟨e, he, hselects⟩ : ∃ e ∈ s.escrows,
      sellerQuery.selects "seller" (Moment.utc (61 * Moment.second)) e = true := by
    decide +kernel
  obtain ⟨i, hline, -, hchosen, -, hsum, -⟩ := hlines e he
  obtain ⟨items, page, hitems, -, hpaged, hoverview⟩ := hpages 100 20 rfl (by decide) (by decide)
  have hmem := (hitems i).mpr ⟨e, he, hline, hchosen.mp hselects⟩
  have hpage := hoverview 0 (by decide)
  have htotal : (s.overview "seller" sellerQuery 100 (Moment.utc (61 * Moment.second))).toOption.map
      (·.total) = some 1 := by
    decide +kernel
  have hone : items.length = 1 := by
    rw [show s.overview "seller" sellerQuery 100 _ = _ from hpage] at htotal
    exact Option.some.inj htotal
  have hwhole := hpaged.whole
  rw [hone, show pagesFor 1 20 = 1 from rfl, List.range_one, List.flatMap_singleton] at hwhole
  rw [hwhole, hone] at hpage
  exact ⟨i, items, hchosen.mp hselects, hsum, hmem, hpage⟩

end Custody
