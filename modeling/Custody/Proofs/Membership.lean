import Custody.Proofs.Paging

/-!
# Who takes part

Four places tell whether a user takes part in an escrow: an inquiry goes by the roles that the user holds,
the question whether somebody is a party by these or the creator, a listing by the roles that are asked for,
and an overview by the creator or the seller. They agree, for the creator of an escrow is its buyer.

> `Escrow.TakesPart`: what it is to take part.
> `involves_iff`, `isParty_iff`, `readEscrow_iff`, `takesPart_of_overviewed`: each place goes by it.
> `membership_agrees`: after whatever has been attempted.
-/

namespace Custody

/-- A user takes part in an escrow, in a role if one is given. -/
def Escrow.TakesPart (e : Escrow) (user : String) : Option Role → Prop
  | some r => ⟨user, r⟩ ∈ e.parties
  | none => ∃ r, ⟨user, r⟩ ∈ e.parties

/-- A listing that asks for nothing but the role. -/
structure ListQuery.Unfiltered (q : ListQuery) : Prop where
  status : q.status = none
  type : q.type = none
  search : ∀ t, q.search = some t → t = ""

theorem ListQuery.Unfiltered.searchable {q : ListQuery} (h : q.Unfiltered) : q.Searchable := by
  intro t ht
  rw [h.search t ht]
  decide

section Members

variable {s : Store} {e : Escrow} {user : String}

theorem involves_iff (role : Option Role) : e.involves user role = true ↔ e.TakesPart user role := by
  cases role with
  | some r => exact List.contains_iff_mem.trans mem_rolesFor
  | none =>
    show (!(rolesFor e.parties user).isEmpty) = true ↔ ∃ r, ⟨user, r⟩ ∈ e.parties
    rw [Bool.not_eq_true', List.isEmpty_eq_false_iff_exists_mem]
    exact exists_congr fun r => mem_rolesFor

/-- The creator takes part, as the buyer. -/
theorem takesPart_of_creator (hs : e.Sound) (h : e.creator = user) : e.TakesPart user none :=
  ⟨.buyer, h ▸ hs.buyer⟩

/-- An inquiry succeeds for those who take part. -/
theorem readEscrow_iff (hread : s.escrow? e.id = some e.loaded) :
    (∃ d, s.readEscrow e.id (some user) = .ok d) ↔ e.TakesPart user none := by
  have hinvolves : e.loaded.involves user none = e.involves user none := rfl
  simp only [readEscrow_eq_ok_iff, hread, Option.some.injEq]
  rw [← involves_iff, ← hinvolves]
  exact ⟨fun ⟨d, hd, h⟩ => hd ▸ h, fun h => ⟨_, rfl, h⟩⟩

/-- Those who take part are the parties. -/
theorem isParty_iff (hs : e.Sound) (hread : s.escrow? e.id = some e.loaded) :
    s.isParty e.id user = true ↔ e.TakesPart user none := by
  have hinvolves : e.loaded.involves user none = e.involves user none := rfl
  rw [Store.isParty, hread, Option.any_some, Bool.or_eq_true, hinvolves, involves_iff]
  exact or_iff_right_of_imp fun h => takesPart_of_creator hs (of_decide_eq_true h)

/-- A listing without filters chooses those in which the user takes part. -/
theorem selects_iff_takesPart {q : ListQuery} (hq : q.Unfiltered) :
    q.selects user e = true ↔ e.TakesPart user q.role := by
  have hsearch : (q.search.all fun t => t = "" || e.mentions t) = true := by
    rw [Option.all_eq_true]
    intro t ht
    rw [decide_eq_true (hq.search t ht), Bool.true_or]
  rw [← involves_iff, ListQuery.selects, ListQuery.admits, hq.status, hq.type, hsearch]
  simp

/-- What is seen from either side is what the user takes part in. -/
theorem takesPart_of_seenFrom (hs : e.Sound) (h : e.seenFrom user .any = true) :
    e.TakesPart user none := by
  rcases Bool.or_eq_true_iff.mp h with h | h
  · exact takesPart_of_creator hs (of_decide_eq_true h)
  · exact ⟨.seller, (involves_iff (some .seller)).mp h⟩

/-- Every line of an overview from either side is of such an escrow. -/
theorem takesPart_of_overviewed (hs : ∀ e ∈ s.escrows, e.Sound) {q : OverviewQuery}
    (hq : q.role = .any) {most : Int} {now : Moment} {o : Overview}
    (h : s.overview user q most now = .ok o) {i : OverviewItem} (hi : i ∈ o.items) :
    ∃ e ∈ s.escrows, i.escrow = e.loaded ∧ e.TakesPart user none := by
  obtain ⟨e, he, hloaded⟩ := List.mem_map.mp (Store.overview_eq_ok h ▸ List.mem_map_of_mem hi)
  obtain ⟨hmem, hselects⟩ := Store.mem_overviewed.mp (mem_of_mem_pageOf he)
  refine ⟨e, hmem, hloaded.symm, takesPart_of_seenFrom (hs e hmem) ?_⟩
  simp only [OverviewQuery.selects, Bool.and_eq_true, hq] at hselects
  exact hselects.1.1.1.1

end Members

/-- After any attempts, of every escrow and every user: an inquiry of the user succeeds, the user is a
party, and the escrow is on the pages of what the user lists without filters, once, or none of the three.
With a role it is there, once, just if the user holds the role. And every line of an overview from either
side is of such an escrow. The pages are those that the store can count to. -/
theorem membership_agrees (as : List Attempt) (user : String) :
    let s := (Records.start.run as).store
    (∀ e ∈ s.escrows,
      ((∃ d, s.readEscrow e.id (some user) = .ok d) ↔ e.TakesPart user none) ∧
      (s.isParty e.id user = true ↔ e.TakesPart user none)) ∧
    (∀ q : ListQuery, q.Unfiltered → ∀ n : Nat, 0 < n → n < 2 ^ 63 → ∃ rows page,
      Paged rows n page ∧
      (∀ k : Nat, k * n < 2 ^ 63 → s.list user { q with page := k + 1, limit := n } =
        .ok ⟨(page k).map Escrow.loaded, rows.length⟩) ∧
      ∀ e ∈ s.escrows, (e.TakesPart user q.role → (rows.map (·.id)).count e.id = 1) ∧
        (¬e.TakesPart user q.role → (rows.map (·.id)).count e.id = 0)) ∧
    ∀ (q : OverviewQuery) (most : Int) (now : Moment) (o : Overview), q.role = .any →
      s.overview user q most now = .ok o →
      ∀ i ∈ o.items, ∃ e ∈ s.escrows, i.escrow = e.loaded ∧ e.TakesPart user none := by
  intro s
  have hk : Kept s (Records.start.run as).counters := Records.kept_run as
  refine ⟨fun e he => ?_, fun q hq n hn hword => ?_, fun q most now o hq ho i hi =>
    takesPart_of_overviewed hk.sound hq ho hi⟩
  · have hread : s.escrow? e.id = some e.loaded :=
      Store.escrow?_of_stored? ((Store.stored?_eq_some_iff hk.distinct).mpr he)
    exact ⟨readEscrow_iff hread, isParty_iff (hk.sound e he) hread⟩
  · have harranged := arranged_arrange q.column q.order
      ((List.filter_sublist (p := q.selects user).map (·.id)).nodup hk.distinct)
    refine ⟨s.listed user q, _, paged_pageOf hn _,
      fun k hoffset => Store.list_of_offset hq.searchable rfl rfl hword hoffset,
      fun e he => ⟨fun h => ?_, fun h => ?_⟩⟩
    · refine List.count_eq_one_of_mem harranged.nodup (List.mem_map_of_mem ?_)
      exact Store.mem_listed.mpr ⟨he, (selects_iff_takesPart hq).mpr h⟩
    · -- A line with the identifier is of no other escrow, and it was chosen.
      refine List.count_eq_zero.mpr fun hmem => ?_
      obtain ⟨d, hd, hid⟩ := List.mem_map.mp hmem
      obtain ⟨hd, hselects⟩ := Store.mem_listed.mp hd
      obtain rfl : d = e := List.inj_on_of_nodup_map hk.distinct hd he hid
      exact h ((selects_iff_takesPart hq).mp hselects)

/-- The seller takes part in the sale, and is shown it wherever they look. A passer-by is not. -/
theorem membership_agrees_datedSale :
    let s := (Records.start.run datedSale).store
    let x := Identifier.escrow 1
    (∃ d, s.readEscrow x (some "seller") = .ok d) ∧ s.isParty x "seller" = true ∧
      (∃ rows page, Paged rows 10 page ∧ (rows.map (·.id)).count x = 1 ∧
        s.list "seller" ⟨none, none, some .seller, none, .createdAt, .asc, 1, 10⟩ =
          .ok ⟨(page 0).map Escrow.loaded, rows.length⟩) ∧
      (∀ d, s.readEscrow x (some "passer-by") ≠ .ok d) ∧ s.isParty x "passer-by" = false := by
  intro s x
  obtain ⟨e, he, hid, hseller, hothers⟩ : ∃ e ∈ s.escrows, e.id = Identifier.escrow 1 ∧
      ⟨"seller", .seller⟩ ∈ e.parties ∧ ∀ p ∈ e.parties, p.user ≠ "passer-by" := by
    decide +kernel
  have hstranger : ¬e.TakesPart "passer-by" none := fun ⟨r, hr⟩ => hothers _ hr rfl
  obtain ⟨hasked, hlisted, -⟩ := membership_agrees datedSale "seller"
  obtain ⟨hstranger', -, -⟩ := membership_agrees datedSale "passer-by"
  obtain ⟨rows, page, hpaged, hpages, hthere⟩ :=
    hlisted ⟨none, none, some .seller, none, .createdAt, .asc, 1, 10⟩ ⟨rfl, rfl, nofun⟩ 10 (by decide)
      (by decide)
  obtain ⟨hread, hparty⟩ := hasked e he
  obtain ⟨hunread, hnoparty⟩ := hstranger' e he
  have honce := (hthere e he).1 hseller
  rw [hid] at hread hparty hunread hnoparty honce
  exact ⟨hread.mpr ⟨_, hseller⟩, hparty.mpr ⟨_, hseller⟩,
    ⟨rows, page, hpaged, honce, hpages 0 (by decide)⟩,
    fun d hd => hstranger (hunread.mp ⟨d, hd⟩),
    Bool.eq_false_of_not_eq_true fun h => hstranger (hnoparty.mp h)⟩

end Custody
