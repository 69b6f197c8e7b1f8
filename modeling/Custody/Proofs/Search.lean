import Custody.Proofs.Paging
import Custody.Proofs.Wildcard

/-!
# What a search finds

A listing with a search text shows some of what it shows without it: the escrows with a text in their title
or their description that has a piece which fits. Their order is the same. All that contain the search text
are among them where no text has a NUL, and no others are as long as none of its characters is special.

> `Arranged.unique`, `Arranged.filter`: some lines of an arrangement are arranged.
> `mentions_iff`: which escrows are found.
> `Store.listed_searching`: they are the lines of a listing that are left.
> `exists_offered`: any title may be in the records.
> `search_contains_iff`: which search texts find just what contains them.
-/

namespace Custody

/-! ## Order -/

section Order

variable {c : Column} {o : SortOrder} {a b : Escrow} {found rows rows' : List Escrow}

/-- Two escrows do not stand before each other. -/
theorem Column.Before.asymm (h : c.Before o a b) : ¬ c.Before o b a := by
  have hswap : c.order b a = (c.order a b).swap := Std.OrientedCmp.eq_swap
  intro h'
  unfold Before at h h'
  rw [hswap] at h'
  -- Seen from the other side the column says the opposite, and nothing only where the identifiers decide.
  cases o <;> cases hab : c.order a b <;> simp [hab] at h h' <;> omega

/-- There is one arrangement of what was found. -/
theorem Arranged.unique (h : Arranged c o found rows) (h' : Arranged c o found rows') : rows = rows' :=
  (h.perm.trans h'.perm.symm).eq_of_pairwise (fun _ _ _ _ hab hba => absurd hba hab.asymm) h.sorted
    h'.sorted

/-- What is left of an arrangement is one of what is left. -/
theorem Arranged.filter (h : Arranged c o found rows) (keep : Escrow → Bool) :
    Arranged c o (found.filter keep) (rows.filter keep) where
  perm := h.perm.filter keep
  nodup := (List.filter_sublist.map _).nodup h.nodup
  sorted := h.sorted.filter keep
  missing hc := (h.missing hc).filter keep

end Order

/-! ## What is found -/

namespace Escrow

/-- The texts of an escrow that are searched. -/
def texts (e : Escrow) : List String := e.title :: e.description.toList

/-- An escrow has a text in its title or its description, with the letters `A` to `Z` like their small
forms. -/
def Contains (e : Escrow) (search : String) : Prop := ∃ text ∈ e.texts, Text.Contains text search

/-- A search text is found in the title or the description. -/
def FoundBy (e : Escrow) (search : String) : Prop := ∃ text ∈ e.texts, Text.Found text search

/-- There is no NUL in what is searched. -/
def NulFree (e : Escrow) : Prop := ∀ text ∈ e.texts, '\x00' ∉ text.toList

instance (e : Escrow) (search : String) : Decidable (e.Contains search) :=
  inferInstanceAs (Decidable (∃ text ∈ e.texts, _))

instance (e : Escrow) (search : String) : Decidable (e.FoundBy search) :=
  inferInstanceAs (Decidable (∃ text ∈ e.texts, _))

instance (e : Escrow) : Decidable e.NulFree := inferInstanceAs (Decidable (∀ text ∈ e.texts, _))

end Escrow

namespace ListQuery

/-- A listing without a search text. -/
def unsearched (q : ListQuery) : ListQuery := { q with search := none }

/-- A listing with a search text. -/
def searching (q : ListQuery) (search : String) : ListQuery := { q with search := some search }

/-- The page of a listing, out of all that it shows. -/
def shown (q : ListQuery) (rows : List Escrow) : Except Failure Page :=
  (paged q.page q.limit rows).map fun items => ⟨items.map Escrow.loaded, rows.length⟩

end ListQuery

section Found

variable {s : Store} {e : Escrow} {user search : String} {q : ListQuery}

/-- An escrow is selected by a search text if it is found. -/
theorem mentions_iff : e.mentions search = true ↔ e.FoundBy search := by
  unfold Escrow.mentions Escrow.FoundBy Escrow.texts
  rw [Bool.or_eq_true, Text.containsPattern_iff, List.exists_mem_cons_iff]
  cases e.description with
  | none => simp
  | some d => simp [Text.containsPattern_iff]

/-- The empty search text is found everywhere. -/
theorem foundBy_empty : e.FoundBy "" :=
  ⟨e.title, List.mem_cons_self, [], [], _, rfl, .nil, nofun⟩

theorem selects_searching : (q.searching search).selects user e =
    (q.unsearched.selects user e && decide (e.FoundBy search)) := by
  have hfound : (decide (search = "") || e.mentions search) = decide (e.FoundBy search) := by
    rw [Bool.eq_iff_iff, Bool.or_eq_true, decide_eq_true_iff, decide_eq_true_iff, mentions_iff]
    exact or_iff_right_of_imp fun hempty => hempty ▸ foundBy_empty
  simp only [ListQuery.selects, ListQuery.admits, ListQuery.searching, ListQuery.unsearched,
    Option.all_some, Option.all_none, Bool.and_true, hfound]

/-- A listing shows a page of all that it shows, where the store does not give up on it. -/
theorem Store.list_eq :
    s.list user q = if q.overstrains s then .error .patternTooLong else q.shown (s.listed user q) := by
  unfold list ListQuery.shown listed
  simp only [length_arrange]
  split
  next => rfl
  next =>
    cases paged q.page q.limit (arrange q.column q.order (s.escrows.filter (q.selects user))) <;> rfl

theorem Store.list_of_searchable (h : q.Searchable) : s.list user q = q.shown (s.listed user q) := by
  rw [list_eq, h.overstrains_eq]
  rfl

theorem searchable_searching : (q.searching search).Searchable ↔ search.utf8ByteSize ≤ 49998 := by
  simp [ListQuery.Searchable, ListQuery.searching]

/-- Where no escrow has the status and the type, a listing shows nothing. -/
theorem Store.listed_eq_nil (h : ∀ e ∈ s.escrows, q.admits e = false) : s.listed user q = [] := by
  refine List.eq_nil_iff_forall_not_mem.mpr fun e he => ?_
  obtain ⟨hmem, hselects⟩ := mem_listed.mp he
  simp [ListQuery.selects, h e hmem] at hselects

/-- With a search text that is too long it shows no more than that, or the store gives up. -/
theorem Store.list_of_not_searchable (h : ¬q.Searchable) :
    s.list user q = if ∃ e ∈ s.escrows, q.admits e = true then .error .patternTooLong
      else q.shown [] := by
  rw [list_eq]
  by_cases hadmits : ∃ e ∈ s.escrows, q.admits e = true
  · rw [if_pos (ListQuery.overstrains_iff.mpr ⟨h, hadmits⟩), if_pos hadmits]
  · rw [if_neg fun ho => hadmits (ListQuery.overstrains_iff.mp ho).2, if_neg hadmits,
      listed_eq_nil (by simpa using hadmits)]

/-- With a search text a listing shows what it finds of the lines without it. -/
theorem Store.listed_searching (hdistinct : (s.escrows.map (·.id)).Nodup) :
    s.listed user (q.searching search) = (s.listed user q.unsearched).filter (·.FoundBy search) := by
  have hselected : s.escrows.filter ((q.searching search).selects user) =
      (s.escrows.filter (q.unsearched.selects user)).filter (·.FoundBy search) := by
    rw [List.filter_filter]
    refine List.filter_congr fun e _ => ?_
    rw [selects_searching, Bool.and_comm]
  have harranged (q : ListQuery) :
      Arranged q.column q.order (s.escrows.filter (q.selects user)) (s.listed user q) :=
    arranged_arrange _ _ ((List.filter_sublist.map _).nodup hdistinct)
  have hall := (harranged q.unsearched).filter (·.FoundBy search)
  rw [← hselected] at hall
  exact (harranged (q.searching search)).unique hall

/-- Where no text has a NUL, no escrow that contains the search text is missing. -/
theorem Escrow.Contains.foundBy (h : e.Contains search) (hnul : e.NulFree) : e.FoundBy search := by
  obtain ⟨text, htext, hcontains⟩ := h
  exact ⟨text, htext, hcontains.found (hnul text htext)⟩

/-- Without special characters, none is found that does not contain it. -/
theorem foundBy_iff_of_literal (hliteral : Text.Literal search.toList) (hnul : e.NulFree) :
    e.FoundBy search ↔ e.Contains search := by
  refine ⟨?_, fun h => h.foundBy hnul⟩
  rintro ⟨text, htext, hfound⟩
  rw [Text.found_iff_of_literal hliteral, Text.beforeNul_of_not_mem (hnul text htext)] at hfound
  exact ⟨text, htext, hfound⟩

end Found

/-! ## Records with a title -/

/-- A creation that nothing stops adds its record. -/
theorem createEscrow_escrows {env : Surroundings} {by' : Caller} {n : NewEscrow} {ps : List Party}
    {t : EscrowType} (hdefine : n.define by'.user = .ok (ps, t)) (hup : env.database = none)
    (hrow : (n.row by'.user (n.assetOr env.defaultAsset) t).fault? = none) (s : Store) (c : Counters) :
    (createEscrow env by' n s c).store.escrows = s.escrows ++
      [n.record (Identifier.escrow (c.escrows + 1)) by'.user (n.assetOr env.defaultAsset) t ps env.now] := by
  simp only [createEscrow, hdefine, hup, hrow]
  rfl

/-- A bicycle that is sold under another title. -/
def saleOf (title : String) : NewEscrow := { sale with title := some title }

/-- The buyer offers to buy it. -/
def offerOf (title : String) : Attempt := ⟨quietSurroundings, ⟨"buyer", none⟩, .create (saleOf title)⟩

/-- Whatever the title is, the buyer has the escrow. -/
theorem exists_offered (title : String) :
    ∃ e, (Records.start.run [offerOf title]).store.escrows = [e] ∧ e.texts = [title] ∧
      e.involves "buyer" none = true := by
  have hdefine : (saleOf title).define "buyer" =
      .ok ([⟨"buyer", .buyer⟩, ⟨"seller", .seller⟩], .standard) := rfl
  -- What the store has against a row does not depend on its title.
  have hsame : ((saleOf title).row "buyer" "XLM" .standard).fault? =
    (sale.row "buyer" "XLM" .standard).fault? := rfl
  have hrow : (sale.row "buyer" "XLM" .standard).fault? = none := by decide +kernel
  have hrun : (Records.start.run [offerOf title]).store =
      (createEscrow quietSurroundings ⟨"buyer", none⟩ (saleOf title) .empty ⟨0, 0, 0⟩).store := by
    simp only [Records.run, Records.after, Records.outcome, offerOf, Operation.run, List.foldl_cons,
      List.foldl_nil, Outcome.store_mapResult, Records.start]
  rw [hrun, createEscrow_escrows hdefine rfl (hsame.trans hrow)]
  exact ⟨_, rfl, rfl, rfl⟩

/-! ## Searching -/

/-- With a special character in the search text, the buyer may be shown what does not contain it. -/
theorem exists_shown_not_contains {search : String} (hsize : search.utf8ByteSize ≤ 49998)
    (hspecial : ¬Text.Literal search.toList) :
    ∃ (as : List Attempt) (q : ListQuery), let s := (Records.start.run as).store
      (∀ e ∈ s.escrows, e.NulFree) ∧ s.list "buyer" (q.searching search) ≠
        q.shown ((s.listed "buyer" q.unsearched).filter (·.Contains search)) := by
  obtain ⟨title, hnul, hfound, hnot⟩ := Text.exists_found_not_contains hspecial
  obtain ⟨e, hescrows, htexts, hinvolves⟩ := exists_offered title
  let q : ListQuery := ⟨none, none, none, none, .createdAt, .asc, 1, 10⟩
  let s := (Records.start.run [offerOf title]).store
  have hthere : e ∈ s.listed "buyer" (q.searching search) := by
    rw [Store.mem_listed, selects_searching, hescrows]
    simp [q, ListQuery.selects, ListQuery.admits, ListQuery.unsearched, Escrow.FoundBy, hinvolves,
      htexts, hfound]
  have hnone : (s.listed "buyer" q.unsearched).filter (·.Contains search) = [] := by
    refine List.filter_eq_nil_iff.mpr fun e' he' => ?_
    have hmem := (Store.mem_listed.mp he').1
    rw [hescrows, List.mem_singleton] at hmem
    simpa [hmem, Escrow.Contains, htexts] using hnot
  refine ⟨[offerOf title], q, by simp [hescrows, Escrow.NulFree, htexts, hnul], fun hlist => ?_⟩
  rw [Store.list_of_searchable (searchable_searching.mpr hsize), hnone] at hlist
  have hlength : (s.listed "buyer" (q.searching search)).length = 0 :=
    congrArg (fun p => p.toOption.elim 0 (·.total)) hlist
  exact absurd (List.length_eq_zero_iff.mp hlength) (List.ne_nil_of_mem hthere)

/-- After any attempts on the records, whatever a user lists: a page with a search text of 49998 bytes at most
shows what a page without it would show of the escrows in which the text is found, in their title or their
description; and where no text has a NUL, all escrows that contain the search text are among these. On a
longer one the store gives up, if any escrow has the status and the type that are asked for, and finds
nothing otherwise. What is found is no more than what contains the search text, in all records without NUL,
just if no character of the search text is a special one. -/
theorem search_contains_iff (search : String) :
    (∀ (as : List Attempt) (user : String) (q : ListQuery),
      let s := (Records.start.run as).store
      let found := (s.listed user q.unsearched).filter (·.FoundBy search)
      s.list user q.unsearched = q.shown (s.listed user q.unsearched) ∧
      (search.utf8ByteSize ≤ 49998 → s.list user (q.searching search) = q.shown found) ∧
      (49998 < search.utf8ByteSize → s.list user (q.searching search) =
        if ∃ e ∈ s.escrows, q.admits e = true then .error .patternTooLong else q.shown []) ∧
      ∀ e ∈ s.listed user q.unsearched, e.NulFree → e.Contains search → e ∈ found) ∧
    (search.utf8ByteSize ≤ 49998 →
      (Text.Literal search.toList ↔ ∀ (as : List Attempt) (user : String) (q : ListQuery),
        let s := (Records.start.run as).store
        (∀ e ∈ s.escrows, e.NulFree) →
        s.list user (q.searching search) =
          q.shown ((s.listed user q.unsearched).filter (·.Contains search)))) := by
  have hdistinct (as : List Attempt) : ((Records.start.run as).store.escrows.map (·.id)).Nodup :=
    (Records.kept_run as).distinct
  refine ⟨fun as user q => ⟨Store.list_of_searchable nofun, fun hsize => ?_, fun hsize => ?_,
    fun e he hnul hcontains => ?_⟩, fun hsize => ⟨fun h as user q hnul => ?_, fun h => ?_⟩⟩
  · rw [Store.list_of_searchable (searchable_searching.mpr hsize), Store.listed_searching (hdistinct as)]
    rfl
  · exact Store.list_of_not_searchable (mt searchable_searching.mp (Nat.not_le_of_lt hsize))
  · exact List.mem_filter.mpr ⟨he, decide_eq_true (hcontains.foundBy hnul)⟩
  · rw [Store.list_of_searchable (searchable_searching.mpr hsize), Store.listed_searching (hdistinct as)]
    refine congrArg q.shown (List.filter_congr fun e he => decide_eq_decide.mpr ?_)
    exact foundBy_iff_of_literal h (hnul e (Store.mem_listed.mp he).1)
  · by_contra hspecial
    obtain ⟨as, q, hnul, hlist⟩ := exists_shown_not_contains hsize hspecial
    exact hlist (h as "buyer" q hnul)

/-- A bicycle is found by a piece of its title, in capitals. It is found by a percent sign just as well, which
is nowhere in the records. -/
theorem search_contains_iff_bicycle :
    let s := (Records.start.run [offerOf "Bicycle"]).store
    let q : ListQuery := ⟨none, none, none, none, .createdAt, .asc, 1, 10⟩
    let total (search : String) := (s.list "buyer" (q.searching search)).toOption.map (·.total)
    total "CYC" = some 1 ∧ total "%" = some 1 ∧ total "100%" = some 0 ∧
      ∀ e ∈ s.escrows, e.NulFree ∧ ¬ e.Contains "%" := by
  intro s q total
  have htotal (search : String) (hsize : search.utf8ByteSize ≤ 49998) :
      total search = some ((s.listed "buyer" q.unsearched).filter (·.FoundBy search)).length := by
    obtain ⟨hpages, -⟩ := search_contains_iff search
    obtain ⟨-, hlist, -⟩ := hpages [offerOf "Bicycle"] "buyer" q
    simp only [total, s, hlist hsize]
    rfl
  rw [htotal _ (by decide), htotal _ (by decide), htotal _ (by decide)]
  decide +kernel

end Custody
