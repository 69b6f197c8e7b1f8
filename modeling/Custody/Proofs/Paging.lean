import Custody.Proofs.Overdue

/-!
# What the pages of a listing hold

A listing is counted and cut into pages by two queries over the same filter. The pages that the store can
count to hold what is counted: put one after another they are the escrows that are asked for, each of them
once, in the order of the column, and those that are alike in it in the order of their identifiers. An
overview does the same with the page size that it may have, at one time, as long as it can show the amounts.

> `arranged_arrange`: in which order a listing shows what it has found.
> `paged_pageOf`: how pages make up the whole.
> `Store.list_of_offset`, `Store.overview_of_offset`: what there is to see on a page.
> `pages_partition`: so it is with every listing and every overview, after whatever has been attempted.
-/

namespace Custody

/-! ## Order -/

/-- Deadlines are compared by what the clock showed, with none before any. -/
theorem Column.order_deadline :
    Column.order .deadline = compareOn fun e : Escrow => e.deadline.map (·.wall) := by
  funext a b
  simp only [order, compareOn]
  cases a.deadline <;> cases b.deadline <;> rfl

instance Column.transCmp_order (c : Column) : Std.TransCmp c.order :=
  match c with
  | .createdAt => inferInstanceAs (Std.TransCmp (compareOn fun e : Escrow => e.createdAt.wall))
  | .updatedAt => inferInstanceAs (Std.TransCmp (compareOn fun e : Escrow => e.updatedAt.wall))
  | .amount => inferInstanceAs (Std.TransCmp (compareOn fun e : Escrow => e.amount.toBinary64.rank))
  | .title => inferInstanceAs (Std.TransCmp (compareOn fun e : Escrow => e.title))
  | .deadline => Column.order_deadline ▸
      inferInstanceAs (Std.TransCmp (compareOn fun e : Escrow => e.deadline.map (·.wall)))

/-- The comparison by a column in a direction, and by the identifiers where that makes no difference. -/
def Column.ranking (c : Column) (o : SortOrder) : Escrow → Escrow → Ordering :=
  compareLex (match o with
    | .asc => c.order
    | .desc => fun a b => c.order b a) (compareOn (·.id.value))

instance Column.transCmp_ranking (c : Column) (o : SortOrder) : Std.TransCmp (c.ranking o) := by
  unfold Column.ranking
  have : Std.TransCmp fun a b => c.order b a := Std.TransCmp.opposite
  cases o <;> infer_instance

theorem precedes_eq (c : Column) (o : SortOrder) (a b : Escrow) :
    precedes c o a b = (c.ranking o a b).isLE := by
  cases o <;> rfl

/-- One escrow stands before another: by the column in the direction, or by its identifier where they are
alike. -/
def Column.Before (c : Column) (o : SortOrder) (a b : Escrow) : Prop :=
  (match o with
    | .asc => c.order a b = .lt
    | .desc => c.order a b = .gt) ∨
  c.order a b = .eq ∧ a.id.value < b.id.value

/-- Where escrows without a deadline stand by deadlines: ascending they are the first, descending the
last. -/
def SortOrder.PutsMissing (o : SortOrder) (a b : Escrow) : Prop :=
  match o with
  | .asc => b.deadline = none → a.deadline = none
  | .desc => a.deadline = none → b.deadline = none

/-- Escrows in the order of a column: each that was found is there once. -/
structure Arranged (c : Column) (o : SortOrder) (found rows : List Escrow) : Prop where
  perm : rows.Perm found
  nodup : (rows.map (·.id)).Nodup
  sorted : rows.Pairwise (c.Before o)
  missing : c = .deadline → rows.Pairwise o.PutsMissing

section Order

variable {c : Column} {o : SortOrder} {a b : Escrow}

/-- What may stand before another escrow with another identifier does. -/
theorem before_of_precedes (h : precedes c o a b = true) (hne : a.id ≠ b.id) : c.Before o a b := by
  have hids : (compare a.id.value b.id.value).isLE = true → a.id.value < b.id.value := by
    intro hle
    have hle := Nat.isLE_compare.mp hle
    exact Nat.lt_of_le_of_ne hle fun heq => hne (congrArg Identifier.mk heq)
  unfold precedes at h
  rcases Ordering.isLE_then_iff_or.mp h with hlt | ⟨heq, hle⟩
  · left
    cases o with
    | asc => exact hlt
    | desc => exact Std.OrientedCmp.gt_iff_lt.mpr hlt
  · right
    refine ⟨?_, hids hle⟩
    cases o with
    | asc => exact heq
    | desc => exact Std.OrientedCmp.eq_comm.mp heq

/-- A missing deadline is before any. -/
theorem Column.order_deadline_of_none {m : Moment} (ha : a.deadline = none) (hb : b.deadline = some m) :
    Column.deadline.order a b = .lt := by
  simp only [order, ha, hb]

theorem putsMissing_of_before (h : Column.deadline.Before o a b) : o.PutsMissing a b := by
  cases o with
  | asc =>
    intro hb
    by_contra hne
    obtain ⟨m, ha⟩ := Option.ne_none_iff_exists'.mp hne
    have hgt : Column.deadline.order a b = .gt :=
      Std.OrientedCmp.gt_iff_lt.mpr (Column.order_deadline_of_none hb ha)
    rcases h with h | ⟨h, -⟩ <;> exact nomatch hgt.symm.trans h
  | desc =>
    intro ha
    by_contra hne
    obtain ⟨m, hb⟩ := Option.ne_none_iff_exists'.mp hne
    have hlt : Column.deadline.order a b = .lt := Column.order_deadline_of_none ha hb
    rcases h with h | ⟨h, -⟩ <;> exact nomatch hlt.symm.trans h

end Order

/-- A listing arranges what it has found. -/
theorem arranged_arrange (c : Column) (o : SortOrder) {found : List Escrow}
    (hnodup : (found.map (·.id)).Nodup) : Arranged c o found (arrange c o found) := by
  have hperm : (arrange c o found).Perm found := List.mergeSort_perm ..
  have hids : ((arrange c o found).map (·.id)).Nodup := (hperm.map _).nodup_iff.mpr hnodup
  have hle : (arrange c o found).Pairwise fun a b => precedes c o a b = true := by
    refine List.pairwise_mergeSort (fun a b d hab hbd => ?_) (fun a b => ?_) found
    · rw [precedes_eq] at *
      exact Std.TransCmp.isLE_trans hab hbd
    · have hswap : c.ranking o b a = (c.ranking o a b).swap := Std.OrientedCmp.eq_swap
      rw [precedes_eq, precedes_eq, hswap]
      cases c.ranking o a b <;> rfl
  have hsorted : (arrange c o found).Pairwise (c.Before o) :=
    (hle.and (List.pairwise_map.mp hids)).imp fun ⟨h, hne⟩ => before_of_precedes h hne
  refine ⟨hperm, hids, hsorted, ?_⟩
  rintro rfl
  exact hsorted.imp putsMissing_of_before

/-! ## Pages -/

/-- How many pages of a size hold so many lines. -/
def pagesFor (total n : Nat) : Nat := (total + n - 1) / n

/-- Pages of a size, the first one with the number 0, that make up a listing. -/
structure Paged {α : Type} (rows : List α) (n : Nat) (page : Nat → List α) : Prop where
  whole : (List.range (pagesFor rows.length n)).flatMap page = rows
  full : ∀ k, k + 1 < pagesFor rows.length n → (page k).length = n
  later : ∀ k, pagesFor rows.length n ≤ k → page k = []

section Pages

variable {α : Type} {rows : List α} {n : Nat}

/-- The pages hold all lines. -/
theorem le_pagesFor_mul (hn : 0 < n) (total : Nat) : total ≤ pagesFor total n * n := by
  have hdiv : n * pagesFor total n + (total + n - 1) % n = total + n - 1 := Nat.div_add_mod ..
  have hmod : (total + n - 1) % n < n := Nat.mod_lt _ hn
  rw [Nat.mul_comm]
  omega

/-- No page is too many. -/
theorem mul_lt_of_lt_pagesFor {total k : Nat} (h : k < pagesFor total n) : k * n < total := by
  have hdiv : n * pagesFor total n ≤ total + n - 1 := Nat.mul_div_le ..
  have hle : n * (k + 1) ≤ n * pagesFor total n := Nat.mul_le_mul_left n h
  rw [Nat.mul_succ] at hle
  have hn : 0 < n := Nat.pos_of_ne_zero fun h0 => by simp [pagesFor, h0] at h
  rw [Nat.mul_comm]
  omega

theorem pageOf_natCast (start n : Nat) (l : List α) : pageOf start n l = (l.drop start).take n := by
  unfold pageOf
  rw [if_neg (by omega), Int.toNat_natCast, Int.toNat_natCast]

/-- The first pages are what the listing begins with. -/
theorem flatMap_range_take (l : List α) (n k : Nat) :
    (List.range k).flatMap (fun i => (l.drop (i * n)).take n) = l.take (k * n) := by
  induction k with
  | zero => simp
  | succ k ih =>
    rw [List.range_succ, List.flatMap_append, ih, List.flatMap_singleton, Nat.succ_mul, List.take_add]

/-- The pages that are cut off from a list, one after another, make it up. -/
theorem paged_pageOf (hn : 0 < n) (rows : List α) :
    Paged rows n fun k => pageOf (k * n : Nat) n rows := by
  have hall := le_pagesFor_mul hn rows.length
  simp only [pageOf_natCast]
  constructor
  case whole =>
    rw [flatMap_range_take]
    exact List.take_of_length_le hall
  case full =>
    intro k hk
    have hlt : (k + 1) * n < rows.length := mul_lt_of_lt_pagesFor hk
    rw [List.length_take, List.length_drop]
    rw [Nat.succ_mul] at hlt
    omega
  case later =>
    intro k hk
    have hle : pagesFor rows.length n * n ≤ k * n := Nat.mul_le_mul_right n hk
    rw [List.drop_of_length_le (Nat.le_trans hall hle), List.take_nil]

/-- The number of pages is told. -/
theorem pageCount_eq (hn : 0 < n) (total : Nat) : pageCount total n = .ok (pagesFor total n) := by
  have hall := le_pagesFor_mul hn total
  have hfew : n * pagesFor total n ≤ total + n - 1 := Nat.mul_div_le ..
  rw [Nat.mul_comm] at hall
  unfold pageCount
  by_cases h0 : total = 0
  · rw [if_pos h0, h0, pagesFor, Nat.div_eq_of_lt (by omega)]
    rfl
  · have hn0 : (n : Int) ≠ 0 := by omega
    rw [if_neg h0, if_neg hn0, Int.fdiv_eq_ediv_of_nonneg _ (Int.natCast_nonneg n)]
    -- What is left over of the last page is less than a page.
    have hrest : (n * pagesFor total n - total : Int) + n * -(pagesFor total n : Int) = -total := by
      rw [Int.mul_neg]
      omega
    have hquotient := ((Int.ediv_emod_unique (by omega : (0 : Int) < n)).mpr
      ⟨hrest, by omega, by omega⟩).1
    rw [hquotient, Int.neg_neg]

end Pages

/-! ## Listings -/

theorem fitsWord_iff {x : Int} : fitsWord x = true ↔ -2 ^ 63 ≤ x ∧ x < 2 ^ 63 := by
  unfold fitsWord
  rw [Bool.and_eq_true, decide_eq_true_iff, decide_eq_true_iff, twoTo_eq]
  exact Iff.rfl

theorem fitsWord_natCast {m : Nat} : fitsWord m = true ↔ m < 2 ^ 63 := by
  rw [fitsWord_iff]
  omega

/-- All that a listing shows, on whatever page. -/
def Store.listed (s : Store) (user : String) (q : ListQuery) : List Escrow :=
  arrange q.column q.order (s.escrows.filter (q.selects user))

theorem Store.mem_listed {s : Store} {user : String} {q : ListQuery} {e : Escrow} :
    e ∈ s.listed user q ↔ e ∈ s.escrows ∧ q.selects user e = true :=
  mem_arrange.trans List.mem_filter

/-- A listing whose search text, if it has one, is short enough for a pattern. -/
def ListQuery.Searchable (q : ListQuery) : Prop := ∀ t, q.search = some t → t.utf8ByteSize ≤ 49998

theorem Text.isSearchable_iff {search : String} :
    isSearchable search = true ↔ search.utf8ByteSize ≤ 49998 := by
  have hbytes : (searchPattern search).utf8ByteSize = search.utf8ByteSize + 2 := by
    simp only [searchPattern, String.utf8ByteSize_append]
    show 1 + search.utf8ByteSize + 1 = _
    omega
  rw [isSearchable, decide_eq_true_iff, hbytes, patternBytesMost]
  omega

section Listings

variable {s : Store} {user : String} {k n : Nat}

/-- The store gives up on a listing that is not searchable, where there are escrows to search. -/
theorem ListQuery.overstrains_iff {q : ListQuery} :
    q.overstrains s = true ↔ ¬q.Searchable ∧ ∃ e ∈ s.escrows, q.admits e = true := by
  unfold overstrains
  rw [Bool.and_eq_true, Option.any_eq_true, List.any_eq_true]
  refine and_congr_left' ?_
  simp only [Bool.not_eq_true', Bool.eq_false_iff, ne_eq, Text.isSearchable_iff, Searchable, not_forall,
    exists_prop]

theorem ListQuery.Searchable.overstrains_eq {q : ListQuery} (h : q.Searchable) :
    q.overstrains s = false :=
  Bool.eq_false_of_not_eq_true fun ho => (overstrains_iff.mp ho).1 h

/-- A page of a listing, and how much it shows on all pages. -/
theorem Store.list_of_offset {q : ListQuery} (hsearch : q.Searchable) (hpage : q.page = k + 1)
    (hlimit : q.limit = n) (hword : n < 2 ^ 63) (hoffset : k * n < 2 ^ 63) :
    s.list user q = .ok ⟨(pageOf (k * n : Nat) n (s.listed user q)).map Escrow.loaded,
      (s.listed user q).length⟩ := by
  have hstart : (q.page - 1) * q.limit = (k * n : Nat) := by
    rw [hpage, hlimit, Int.add_sub_cancel, Int.natCast_mul]
  have hpaged : paged q.page q.limit (s.listed user q) = _ :=
    paged_of_fits (hstart ▸ fitsWord_natCast.mpr hoffset) (hlimit ▸ fitsWord_natCast.mpr hword) _
  rw [hstart, hlimit] at hpaged
  unfold listed at hpaged ⊢
  unfold list
  simp only [hsearch.overstrains_eq, hlimit, hpaged, length_arrange, bind, Except.bind]
  rfl

/-- The store has no pages that are larger than it can count. -/
theorem Store.list_of_limit {q : ListQuery} (hsearch : q.Searchable) (hlimit : q.limit = n)
    (h : 2 ^ 63 ≤ n) :
    s.list user q = .error .offsetOutOfRange := by
  have hfit : fitsWord q.limit = false := by
    rw [hlimit, Bool.eq_false_iff]
    exact fun hfit => absurd (fitsWord_natCast.mp hfit) (Nat.not_lt.mpr h)
  simp only [list, hsearch.overstrains_eq, paged, hfit, Bool.and_false]
  rfl

/-- Only whether an escrow is overdue depends on the time. -/
theorem OverviewQuery.selects_congr {q : OverviewQuery} {now now' : Moment}
    (h : q.status = some .expired → now' = now) : q.selects user now' = q.selects user now := by
  funext e
  unfold selects
  cases hs : q.status with
  | none => rfl
  | some status =>
    cases status with
    | expired => rw [h hs]
    | _ => rfl

/-- A page of an overview that can show its amounts, and how much there is on all pages. -/
theorem Store.overview_of_offset {q : OverviewQuery} {most : Int} {now : Moment}
    (hpage : q.page = k + 1) (hsize : min q.pageSize most = n) (hn : 0 < n) (hword : n < 2 ^ 63)
    (hoffset : k * n < 2 ^ 63)
    (hamounts : ∀ e ∈ pageOf (k * n : Nat) n (s.overviewed user q now),
      e.loaded.amount.isFinite = true) :
    ∃ items, s.overview user q most now =
        .ok ⟨items, (s.overviewed user q now).length, pagesFor (s.overviewed user q now).length n,
          k + 1, n⟩ ∧
      items.map (·.escrow) =
        (pageOf (k * n : Nat) n (s.overviewed user q now)).map Escrow.loaded := by
  have hstart : (q.page - 1) * min q.pageSize most = (k * n : Nat) := by
    rw [hpage, hsize, Int.add_sub_cancel, Int.natCast_mul]
  obtain ⟨items, hitems⟩ := overview_of_fits (hstart ▸ fitsWord_natCast.mpr hoffset)
    (hsize ▸ fitsWord_natCast.mpr hword) (by rwa [hstart, hsize]) (by rw [hsize]; exact pageCount_eq hn _)
  have hescrows := overview_eq_ok hitems
  rw [hstart, hsize] at hescrows
  rw [hpage, hsize] at hitems
  exact ⟨items, hitems, hescrows⟩

end Listings

/-- After any attempts on the records, and for pages of a size that the store can count to: whatever a user
lists, with a search text of 49998 bytes at most if there is one, there is an arrangement of the escrows
asked for of which each page of the listing is a piece, as long as the store can count to where it begins.
Each escrow is there once, in the order of the column, and of the identifiers where that makes no
difference. The pages make up the arrangement, all but the last are full, and those after the last are empty;
and each of them tells how many escrows there are. So it is with an overview, of the page size that it may
have, judged at one time where it asks for what is overdue, and on each page of which it can show the
amounts. -/
theorem pages_partition (as : List Attempt) (user : String) {n : Nat} (hn : 0 < n)
    (hword : n < 2 ^ 63) :
    let s := (Records.start.run as).store
    (∀ q : ListQuery, q.Searchable → ∃ rows page,
      Arranged q.column q.order (s.escrows.filter (q.selects user)) rows ∧ Paged rows n page ∧
      ∀ k : Nat, k * n < 2 ^ 63 →
        s.list user { q with page := k + 1, limit := n } =
          .ok ⟨(page k).map Escrow.loaded, rows.length⟩) ∧
    ∀ (q : OverviewQuery) (most : Int) (now : Moment), min q.pageSize most = n → ∃ rows page,
      Arranged q.column q.sortOrder (s.escrows.filter (q.selects user now)) rows ∧
      Paged rows n page ∧
      ∀ k : Nat, k * n < 2 ^ 63 → (∀ e ∈ page k, e.loaded.amount.isFinite = true) →
        ∀ now', (q.status = some .expired → now' = now) → ∃ items,
          s.overview user { q with page := k + 1 } most now' =
            .ok ⟨items, rows.length, pagesFor rows.length n, k + 1, n⟩ ∧
          items.map (·.escrow) = (page k).map Escrow.loaded := by
  intro s
  have hnodup : ∀ p : Escrow → Bool, ((s.escrows.filter p).map (·.id)).Nodup := fun p =>
    (List.filter_sublist.map _).nodup (Records.kept_run as).distinct
  refine ⟨fun q hsearch => ?_, fun q most now hsize => ?_⟩
  · exact ⟨s.listed user q, _, arranged_arrange _ _ (hnodup _), paged_pageOf hn _,
      fun k hoffset => Store.list_of_offset hsearch rfl rfl hword hoffset⟩
  · refine ⟨s.overviewed user q now, _, arranged_arrange _ _ (hnodup _), paged_pageOf hn _,
      fun k hoffset hamounts now' hnow => ?_⟩
    have hsame : s.overviewed user q now' = s.overviewed user q now := by
      unfold Store.overviewed
      rw [OverviewQuery.selects_congr hnow]
    rw [← hsame] at hamounts ⊢
    exact Store.overview_of_offset rfl hsize hn hword hoffset hamounts

/-- The buyer offers to buy three times: until the end of a minute, until the end of another one, and for
an amount without bound of another asset. -/
def threeOffers : List Attempt :=
  let offer (n : NewEscrow) : Attempt := ⟨quietSurroundings, ⟨"buyer", none⟩, .create n⟩
  [offer { sale with deadline := some ⟨60 * Moment.second, none⟩ },
    offer { sale with deadline := some ⟨120 * Moment.second, none⟩ },
    offer { sale with amount := .infinite false, asset := some "stars" }]

/-- By descending deadlines and two to a page, the three are on two pages. A second after both deadlines, the
overview shows two of them as overdue, and that is one page. -/
theorem pages_partition_threeOffers :
    let s := (Records.start.run threeOffers).store
    let listing (page : Int) := s.list "buyer" ⟨none, none, none, none, .deadline, .desc, page, 2⟩
    let overdue (page : Int) := s.overview "buyer" (.overdue page 2 .deadline .asc) 100
      ⟨121 * Moment.second, none⟩
    (∃ first second, listing 1 = .ok ⟨first, 3⟩ ∧ listing 2 = .ok ⟨second, 3⟩ ∧
      listing 3 = .ok ⟨[], 3⟩ ∧ first.length = 2 ∧ second.length = 1) ∧
    ∃ items, overdue 1 = .ok ⟨items, 2, 1, 1, 2⟩ ∧ items.length = 2 := by
  intro s listing overdue
  obtain ⟨hlist, hoverview⟩ := pages_partition threeOffers "buyer" (by decide : 0 < 2) (by decide)
  constructor
  · obtain ⟨rows, page, harranged, hpaged, hpages⟩ :=
      hlist ⟨none, none, none, none, .deadline, .desc, 1, 2⟩ nofun
    have htotal : rows.length = 3 := harranged.perm.length_eq.trans (by decide +kernel)
    rw [htotal] at hpages
    have hwhole := congrArg List.length hpaged.whole
    have hfull := hpaged.full 0 (by rw [htotal]; decide)
    rw [htotal, show pagesFor 3 2 = 2 from rfl] at hwhole
    simp only [List.range_succ, List.range_zero, List.nil_append, List.flatMap_append,
      List.flatMap_singleton, List.length_append, hfull] at hwhole
    refine ⟨_, _, hpages 0 (by decide), hpages 1 (by decide), ?_, ?_, ?_⟩
    · rw [← List.map_nil (f := Escrow.loaded), ← hpaged.later 2 (by rw [htotal]; decide)]
      exact hpages 2 (by decide)
    · rw [List.length_map, hfull]
    · rw [List.length_map]
      omega
  · obtain ⟨rows, page, harranged, hpaged, hpages⟩ := hoverview (.overdue 1 2 .deadline .asc) 100
      ⟨121 * Moment.second, none⟩ (by decide)
    have htotal : rows.length = 2 := harranged.perm.length_eq.trans (by decide +kernel)
    have hwhole := hpaged.whole
    rw [htotal, show pagesFor 2 2 = 1 from rfl, List.range_one, List.flatMap_singleton] at hwhole
    have hfinite : ∀ e ∈ page 0, e.loaded.amount.isFinite = true := by
      intro e he
      rw [hwhole, harranged.perm.mem_iff] at he
      revert e
      decide +kernel
    obtain ⟨items, hitems, hescrows⟩ :=
      hpages 0 (by decide) hfinite ⟨121 * Moment.second, none⟩ fun _ => rfl
    rw [htotal] at hitems
    refine ⟨items, hitems, ?_⟩
    rw [← List.length_map (·.escrow), hescrows, List.length_map, hwhole, htotal]

/-- A text of as many bytes as one likes. -/
theorem utf8ByteSize_replicate (n : Nat) :
    (String.ofList (List.replicate n 'x')).utf8ByteSize = n := by
  induction n with
  | zero => rfl
  | succ n ih =>
    rw [List.replicate_succ', String.ofList_append, String.utf8ByteSize_append, ih]
    rfl

/-- It is not so with every page that can be asked for. The store does not count to a page of any size, and
gives up on a search text that is too long. An
overview has pages of its own size where a larger one is asked for. It does not show an amount without bound.
And as time goes by, there is a page of what is overdue where there was none before. -/
theorem pages_broken_threeOffers :
    let s := (Records.start.run threeOffers).store
    let listing (size : Nat) := s.list "buyer" ⟨none, none, none, none, .createdAt, .asc, 1, size⟩
    let overdue (page pageSize most now : Int) :=
      s.overview "buyer" (.overdue page pageSize .createdAt .asc) most ⟨now, none⟩
    let stars := s.overview "buyer"
      ⟨.depositor, none, some "stars", none, none, 1, 1, .createdAt, .asc⟩ 100 ⟨0, none⟩
    listing (2 ^ 63) = .error .offsetOutOfRange ∧
    s.list "buyer" ⟨none, none, none, some (String.ofList (List.replicate 49999 'x')), .createdAt, .asc,
      1, 10⟩ = .error .patternTooLong ∧
    (∃ items, overdue 1 2 1 (121 * Moment.second) = .ok ⟨items, 2, 2, 1, 1⟩ ∧ items.length = 1) ∧
    stars.toOption.isNone = true ∧
    (overdue 1 1 100 (61 * Moment.second)).toOption.map (fun o => (o.total, o.pages)) = some (1, 1) ∧
    ∃ items, overdue 2 1 100 (121 * Moment.second) = .ok ⟨items, 2, 2, 2, 1⟩ ∧ items.length = 1 := by
  intro s listing overdue stars
  let late : Moment := ⟨121 * Moment.second, none⟩
  have hcount (page pageSize : Int) : (s.overviewed "buyer"
      (.overdue page pageSize .createdAt .asc) late).length = 2 := by
    have hfound : (s.escrows.filter
        ((OverviewQuery.overdue 1 1 .createdAt .asc).selects "buyer" late)).length = 2 := by
      decide +kernel
    exact (length_arrange ..).trans hfound
  have hamounts : ∀ e ∈ s.escrows, e.overdue late = true → e.loaded.amount.isFinite = true := by
    decide +kernel
  -- The two that are overdue in the end can be shown, on pages of their own.
  have hlate (k : Nat) (pageSize most : Int) (hk : k < 2) (hsize : min pageSize most = 1) :
      ∃ items, overdue (k + 1) pageSize most (121 * Moment.second) = .ok ⟨items, 2, 2, k + 1, 1⟩ ∧
        items.length = 1 := by
    have hfinite : ∀ e ∈ pageOf (k * 1 : Nat) (1 : Nat) (s.overviewed "buyer"
        (.overdue (k + 1) pageSize .createdAt .asc) late), e.loaded.amount.isFinite = true := by
      intro e he
      obtain ⟨hmem, -, hover⟩ := Store.mem_overviewed_overdue.mp (mem_of_mem_pageOf he)
      exact hamounts e hmem hover
    obtain ⟨items, hitems, hescrows⟩ :=
      Store.overview_of_offset rfl hsize Nat.one_pos (by decide) (by omega) hfinite
    rw [hcount] at hitems
    refine ⟨items, hitems, ?_⟩
    rw [← List.length_map (·.escrow), hescrows, List.length_map, pageOf_natCast, List.length_take,
      List.length_drop, hcount]
    omega
  have hlong : ListQuery.overstrains ⟨none, none, none, some (String.ofList (List.replicate 49999 'x')),
      .createdAt, .asc, 1, 10⟩ s = true := by
    refine ListQuery.overstrains_iff.mpr ⟨fun h => ?_, ?_⟩
    · have hshort := h _ rfl
      rw [utf8ByteSize_replicate] at hshort
      omega
    · obtain ⟨e, he⟩ : ∃ e, e ∈ s.escrows := List.exists_mem_of_ne_nil _ (by decide +kernel)
      exact ⟨e, he, rfl⟩
  exact ⟨Store.list_of_limit nofun rfl (Nat.le_refl _), if_pos hlong, hlate 0 2 1 (by decide) rfl,
    by decide +kernel, by decide +kernel, hlate 1 1 100 (by decide) rfl⟩

end Custody
