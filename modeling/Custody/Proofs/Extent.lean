import Custody.Proofs.Panorama

/-!
# How far an overview reaches

An overview answers in pages of the size that is asked for, up to the largest one that the settings allow.
A request asks for a size from 1 to 100 and for a page from 1 on; the settings may allow any size, also none
or less. So an answer depends on whether the store can count to where the page begins, on whether there is a
size to divide by, and on the amounts of the page. An answer with a size of at least one holds at most so
many lines and tells the least number of pages that hold everything.

> `OverviewQuery.read_eq_ok`: what a request may ask for.
> `Store.exists_overview_iff`: when there is an answer.
> `Overview.Counted`: an answer whose pages are counted.
> `overview_answers`: which requests get such an answer.
-/

namespace Custody

/-! ## Requests and settings -/

theorem wholeIn_eq_ok {least : Int} {most : Option Int} {v : Json} {n : Int}
    (h : wholeIn least most v = .ok n) : least ≤ n ∧ ∀ m, most = some m → n ≤ m := by
  unfold wholeIn at h
  split at h
  next k _ =>
    split at h
    next => cases h
    next hmost =>
      split at h
      next => cases h
      next hleast =>
        cases h
        refine ⟨Int.not_lt.mp hleast, ?_⟩
        rintro m rfl
        simpa using hmost
  next => cases h

/-- A request asks for a page from 1 on, of a size from 1 to 100. -/
theorem OverviewQuery.read_eq_ok {src : Source} {v : Json} {q : OverviewQuery}
    (h : OverviewQuery.read src v = .ok q) : 1 ≤ q.page ∧ 1 ≤ q.pageSize ∧ q.pageSize ≤ 100 := by
  obtain ⟨ms, hms⟩ := model_eq_ok h
  obtain ⟨_, _, -, h₈, rfl⟩ := Reading.arg_eq_ok hms
  obtain ⟨_, _, -, h₇, rfl⟩ := Reading.arg_eq_ok h₈
  obtain ⟨size, _, hsize, h₆, rfl⟩ := Reading.arg_eq_ok h₇
  obtain ⟨page, _, hpage, h₅, rfl⟩ := Reading.arg_eq_ok h₆
  obtain ⟨_, _, -, h₄, rfl⟩ := Reading.arg_eq_ok h₅
  obtain ⟨_, _, -, h₃, rfl⟩ := Reading.arg_eq_ok h₄
  obtain ⟨_, _, -, h₂, rfl⟩ := Reading.arg_eq_ok h₃
  obtain ⟨_, _, -, h₁, rfl⟩ := Reading.arg_eq_ok h₂
  obtain ⟨_, _, -, hmk, rfl⟩ := Reading.arg_eq_ok h₁
  cases hmk
  have hsize' : 1 ≤ size ∧ size ≤ 100 := by
    rcases defaulted_eq_ok hsize with rfl | ⟨w, hw⟩
    · decide
    · obtain ⟨hleast, hmost⟩ := wholeIn_eq_ok hw
      exact ⟨hleast, hmost 100 rfl⟩
  refine ⟨?_, hsize'⟩
  rcases defaulted_eq_ok hpage with rfl | ⟨w, hw⟩
  · exact Int.le_refl 1
  · exact (wholeIn_eq_ok hw).1

/-- The settings allow any size of a page. -/
theorem Settings.exists_overviewMaxPageSize (most : Int) :
    ∃ set, ofValues [("overview_max_page_size", .int most)] = .ok set ∧
      set.overviewMaxPageSize = most := ⟨_, rfl, rfl⟩

/-! ## Answers -/

/-- The store can count to where a page of a size begins. -/
def OverviewQuery.InReach (q : OverviewQuery) (size : Int) : Prop :=
  fitsWord ((q.page - 1) * size) = true ∧ fitsWord size = true

/-- An answer whose pages are of some size: none has more lines, and no fewer pages would hold what there
is. -/
structure Overview.Counted (o : Overview) : Prop where
  size : 1 ≤ o.pageSize
  few : o.items.length ≤ o.pageSize
  enough : o.total ≤ o.pages * o.pageSize
  least : ∀ k : Int, o.total ≤ k * o.pageSize → o.pages ≤ k

section Answers

variable {s : Store} {user : String} {q : OverviewQuery} {most : Int} {now : Moment}

theorem OverviewItem.isFinite_of_ofEscrow {e : Escrow} {i : OverviewItem} (h : ofEscrow e = .ok i) :
    e.amount.isFinite = true := by
  by_contra hnot
  unfold ofEscrow at h
  dsimp only at h
  split at h
  next => cases h
  next => simp [unshowable, hnot] at h

theorem isFinite_of_lines {es : List Escrow} {items : List OverviewItem}
    (h : (es.mapM fun e => OverviewItem.ofEscrow e.loaded) = .ok items) :
    ∀ e ∈ es, e.loaded.amount.isFinite = true := by
  induction Except.mapM_eq_ok_iff.mp h with
  | nil => exact List.forall_mem_nil _
  | cons hi hrest ih =>
    exact List.forall_mem_cons.mpr ⟨OverviewItem.isFinite_of_ofEscrow hi,
      ih (Except.mapM_eq_ok_iff.mpr hrest)⟩

theorem pageCount_eq_ok_iff {total : Nat} {size : Int} :
    (∃ k, pageCount total size = .ok k) ↔ (size = 0 → total = 0) := by
  unfold pageCount
  split
  next h0 => exact iff_of_true ⟨_, rfl⟩ fun _ => h0
  next h0 =>
    split
    next hsize => exact iff_of_false (fun ⟨k, hk⟩ => nomatch hk) fun h => h0 (h hsize)
    next hsize => exact iff_of_true ⟨_, rfl⟩ fun h => absurd h hsize

/-- There is an answer when the store can count to the page, when its amounts can be shown, and when there
is a size to divide by or nothing to count. -/
theorem Store.exists_overview_iff :
    (∃ o, s.overview user q most now = .ok o) ↔
      q.InReach (min q.pageSize most) ∧
      (∀ e ∈ pageOf ((q.page - 1) * min q.pageSize most) (min q.pageSize most)
        (s.overviewed user q now), e.loaded.amount.isFinite = true) ∧
      (min q.pageSize most = 0 → s.overviewed user q now = []) := by
  constructor
  · rintro ⟨o, ho⟩
    have hlines := lines_of_overview ho
    unfold overview at ho
    obtain ⟨rows, hrows, ho⟩ := Except.bind_eq_ok_iff.mp ho
    obtain ⟨items, hitems, ho⟩ := Except.bind_eq_ok_iff.mp ho
    obtain ⟨pages, hpages, -⟩ := Except.bind_eq_ok_iff.mp ho
    refine ⟨?_, isFinite_of_lines hlines, fun h => ?_⟩
    · unfold paged at hrows
      dsimp only at hrows
      split at hrows
      next hfit => exact Bool.and_eq_true_iff.mp hfit
      next => cases hrows
    · have hnone := pageCount_eq_ok_iff.mp ⟨pages, hpages⟩ h
      exact List.eq_nil_of_length_eq_zero ((length_arrange ..).trans hnone)
  · rintro ⟨⟨hstart, hsize⟩, hamounts, hnone⟩
    obtain ⟨pages, hpages⟩ := pageCount_eq_ok_iff.mpr fun h => congrArg List.length (hnone h)
    obtain ⟨items, hitems⟩ := overview_of_fits hstart hsize hamounts hpages
    exact ⟨_, hitems⟩

/-- What the store cannot count to, it does not answer. -/
theorem Store.overview_of_not_inReach (h : ¬q.InReach (min q.pageSize most)) :
    s.overview user q most now = .error .offsetOutOfRange := by
  have hfit : (fitsWord ((q.page - 1) * min q.pageSize most) && fitsWord (min q.pageSize most)) =
      false := Bool.eq_false_of_not_eq_true fun hfit => h (Bool.and_eq_true_iff.mp hfit)
  simp only [overview, paged, hfit]
  rfl

/-- Where pages may have no lines, there is nothing to divide by. -/
theorem Store.overview_of_noSize (hsize : min q.pageSize most = 0)
    (hfound : s.overviewed user q now ≠ []) :
    s.overview user q most now = .error .divisionByZero := by
  have hrows : pageOf 0 0 (s.overviewed user q now) = [] := by simp [pageOf]
  have hlength : (s.escrows.filter (q.selects user now)).length ≠ 0 := fun h0 =>
    hfound (List.eq_nil_of_length_eq_zero ((length_arrange ..).trans h0))
  have hpaged : paged q.page 0 (arrange q.column q.sortOrder (s.escrows.filter (q.selects user now))) =
      .ok [] := by
    rw [paged_of_fits (by rw [Int.mul_zero]; decide) (by decide), Int.mul_zero]
    exact congrArg _ hrows
  unfold overview
  simp only [hsize, hpaged, pageCount, if_neg hlength]
  rfl

/-- What an answer tells beside its lines. -/
theorem Store.tally_of_overview {o : Overview} (h : s.overview user q most now = .ok o) :
    o.total = (s.overviewed user q now).length ∧ o.pageSize = min q.pageSize most ∧
      pageCount o.total (min q.pageSize most) = .ok o.pages := by
  unfold overview at h
  obtain ⟨rows, hrows, h⟩ := Except.bind_eq_ok_iff.mp h
  obtain ⟨items, hitems, h⟩ := Except.bind_eq_ok_iff.mp h
  obtain ⟨pages, hpages, h⟩ := Except.bind_eq_ok_iff.mp h
  cases h
  exact ⟨(length_arrange ..).symm, rfl, hpages⟩

/-- So many pages are the least number that holds all. -/
theorem pagesFor_le_of_le_mul {total n : Nat} {k : Int} (hn : 0 < n) (h : (total : Int) ≤ k * n) :
    (pagesFor total n : Int) ≤ k := by
  by_contra hlt
  -- A number of pages below zero holds nothing, so it is one of the pages that there are.
  have hnonneg : 0 ≤ k := by
    by_contra hneg
    have := Int.mul_neg_of_neg_of_pos (Int.not_le.mp hneg) (Int.natCast_pos.mpr hn)
    omega
  obtain ⟨j, rfl⟩ := Int.eq_ofNat_of_zero_le hnonneg
  have hfew : j * n < total := mul_lt_of_lt_pagesFor (by omega)
  have : (j * n : Int) < total := by exact_mod_cast hfew
  omega

/-- The pages of an answer are counted just if they have some size. -/
theorem Store.counted_iff {o : Overview} (h : s.overview user q most now = .ok o) :
    o.Counted ↔ 1 ≤ min q.pageSize most := by
  obtain ⟨-, hsize, hpages⟩ := tally_of_overview h
  refine ⟨fun hc => hsize ▸ hc.size, fun hsome => ?_⟩
  have hlength := congrArg List.length (overview_eq_ok h)
  rw [List.length_map, List.length_map] at hlength
  -- The size of the pages and their number are whole numbers now, and `pagesFor` gives the latter.
  rw [← hsize] at hsome hpages hlength
  obtain ⟨n, hn⟩ := Int.eq_ofNat_of_zero_le (Int.le_trans Int.one_nonneg hsome)
  rw [hn] at hsome hpages hlength
  have hpos : 0 < n := by omega
  rw [pageCount_eq hpos] at hpages
  constructor
  · rwa [hn]
  · rw [hlength, hn, pageOf, if_neg (by omega), Int.toNat_natCast, List.length_take]
    omega
  · rw [hn, ← Except.ok.inj hpages]
    exact_mod_cast le_pagesFor_mul hpos o.total
  · intro k hk
    rw [hn] at hk
    rw [← Except.ok.inj hpages]
    exact pagesFor_le_of_le_mul hpos hk

/-- Where a request begins from the front, the store can count to it if it is not too far. -/
theorem OverviewQuery.inReach_iff {size : Int} (hpage : 1 ≤ q.page) (hleast : 1 ≤ size)
    (hlargest : size ≤ 100) : q.InReach size ↔ (q.page - 1) * size < 2 ^ 63 := by
  have hstart : 0 ≤ (q.page - 1) * size := Int.mul_nonneg (by omega) (by omega)
  unfold InReach
  rw [fitsWord_iff, fitsWord_iff]
  omega

/-- So a request of the right shape gets an answer whose pages are counted just if the settings allow
pages that have lines, the page is not too far away and its amounts can be shown. -/
theorem Store.exists_counted_iff (hpage : 1 ≤ q.page) (hleast : 1 ≤ q.pageSize)
    (hlargest : q.pageSize ≤ 100) :
    let size := min q.pageSize most
    (∃ o, s.overview user q most now = .ok o ∧ o.Counted) ↔
      1 ≤ most ∧ (q.page - 1) * size < 2 ^ 63 ∧
      ∀ e ∈ pageOf ((q.page - 1) * size) size (s.overviewed user q now),
        e.loaded.amount.isFinite = true := by
  intro size
  have hreach (hsome : 1 ≤ most) : q.InReach size ↔ (q.page - 1) * size < 2 ^ 63 :=
    q.inReach_iff hpage (by omega) (by omega)
  constructor
  · rintro ⟨o, ho, hcounted⟩
    have hsome : 1 ≤ most := by
      have := (counted_iff ho).mp hcounted
      omega
    obtain ⟨hr, hamounts, -⟩ := exists_overview_iff.mp ⟨o, ho⟩
    exact ⟨hsome, (hreach hsome).mp hr, hamounts⟩
  · rintro ⟨hsome, hnear, hamounts⟩
    obtain ⟨o, ho⟩ := exists_overview_iff.mpr ⟨(hreach hsome).mpr hnear, hamounts, fun h0 => by omega⟩
    exact ⟨o, ho, (counted_iff ho).mpr (by omega)⟩

end Answers

/-- After any attempts, whoever asks for an overview with a request of the right shape: there is an answer
whose pages are counted just if the settings allow a page of at least one line, the store can count to where
the page begins, and the amounts of the page can be shown. They can where every amount is below `10^13`. But
the settings may allow any size, and a request may ask for any page. With no size there is a division by
zero as soon as there is something to show, and with a size below zero no answer counts its pages; a page
that is too far away is not answered. -/
theorem overview_answers (as : List Attempt) (user : String) {src : Source} {v : Json}
    {q : OverviewQuery} (hq : OverviewQuery.read src v = .ok q) (most : Int) (now : Moment) :
    let s := (Records.start.run as).store
    let size := min q.pageSize most
    let answer := s.overview user q most now
    (∃ ms set, Settings.ofValues ms = .ok set ∧ set.overviewMaxPageSize = most) ∧
    ((∃ o, answer = .ok o ∧ o.Counted) ↔ 1 ≤ most ∧ (q.page - 1) * size < 2 ^ 63 ∧
      ∀ e ∈ pageOf ((q.page - 1) * size) size (s.overviewed user q now),
        e.loaded.amount.isFinite = true) ∧
    ((∀ e ∈ s.escrows, 0 < e.amount.value ∧ e.amount.value < 10 ^ 13) →
      ((∃ o, answer = .ok o ∧ o.Counted) ↔ 1 ≤ most ∧ (q.page - 1) * size < 2 ^ 63)) ∧
    (∀ o, answer = .ok o → (o.Counted ↔ 1 ≤ most)) ∧
    (most = 0 → s.overviewed user q now ≠ [] → answer = .error .divisionByZero) ∧
    (2 ^ 63 ≤ (q.page - 1) * size → answer = .error .offsetOutOfRange) := by
  intro s size answer
  obtain ⟨hpage, hleast, hlargest⟩ := OverviewQuery.read_eq_ok hq
  have hsize : 1 ≤ size ↔ 1 ≤ most := by omega
  have hanswer : (∃ o, answer = .ok o ∧ o.Counted) ↔ _ :=
    Store.exists_counted_iff hpage hleast hlargest
  refine ⟨⟨_, Settings.exists_overviewMaxPageSize most⟩, hanswer, fun hamounts => ?_,
    fun o ho => (Store.counted_iff ho).trans hsize,
    fun h0 hfound => Store.overview_of_noSize (by omega) hfound, fun hfar => ?_⟩
  · refine hanswer.trans (and_congr_right fun _ => and_iff_left fun e he => ?_)
    obtain ⟨hpositive, hbelow⟩ := hamounts e (Store.mem_overviewed.mp (mem_of_mem_pageOf he)).1
    exact Escrow.isFinite_loaded hpositive hbelow
  · exact Store.overview_of_not_inReach fun h =>
      absurd (fitsWord_iff.mp h.1).2 (Int.not_lt.mpr hfar)

/-- A request for the sale of a buyer. -/
def buyerRequest (page : Int) : Json :=
  .object [("role", .text "depositor"), ("page", .int page)]

/-- The buyer sees the sale on the first page. With settings that allow pages of no line there is a division
by zero, and a page that is too far away is not answered. -/
theorem overview_answers_datedSale :
    let s := (Records.start.run datedSale).store
    let now : Moment := Moment.utc 0
    ∃ q far, OverviewQuery.read .body (buyerRequest 1) = .ok q ∧
      OverviewQuery.read .body (buyerRequest 461168601842738792) = .ok far ∧
      (∃ o, s.overview "buyer" q 100 now = .ok o ∧ o.Counted) ∧
      s.overview "buyer" q 0 now = .error .divisionByZero ∧
      s.overview "buyer" far 100 now = .error .offsetOutOfRange := by
  intro s now
  have hfirst : OverviewQuery.read .body (buyerRequest 1) =
      .ok ⟨.depositor, none, none, none, none, 1, 20, .createdAt, .desc⟩ := rfl
  have hlast : OverviewQuery.read .body (buyerRequest 461168601842738792) =
      .ok ⟨.depositor, none, none, none, none, 461168601842738792, 20, .createdAt, .desc⟩ := rfl
  refine ⟨_, _, hfirst, hlast, ?_, ?_, ?_⟩
  · obtain ⟨-, -, hcounted, -⟩ := overview_answers datedSale "buyer" hfirst 100 now
    exact (hcounted fun e he => ⟨(datedSale_fitsColumn e he).positive,
      (datedSale_fitsColumn e he).below⟩).mpr ⟨by decide, by decide⟩
  · obtain ⟨-, -, -, -, hnone, -⟩ := overview_answers datedSale "buyer" hfirst 0 now
    refine hnone rfl (List.ne_nil_of_length_pos ?_)
    rw [Store.overviewed, length_arrange]
    decide +kernel
  · obtain ⟨-, -, -, -, -, hfar⟩ := overview_answers datedSale "buyer" hlast 100 now
    exact hfar (by decide)

end Custody
