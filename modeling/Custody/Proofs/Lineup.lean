import Custody.Proofs.Rows

/-!
# Who may take part in a new escrow

A list of entries is judged in three rounds: each entry by itself, then pairs that come twice, then
the sellers. A list that passes is legal, and one that does not is refused for the first thing that the
first of these rounds finds. Where the roles are told in words, the first round is made while they are
read; it finds the same.

> `firstRepeated_eq_some_iff`: the pair that is found is the first of those that come again.
> `screenEntries_told`: reading the entries finds what judging them finds.
> `lineup_decided`: what is legal, what becomes of it, and what is held against anything else.
-/

namespace Custody

/-- What an entry gets wrong whatever else is listed: it has somebody buy who is not the creator, or the
creator sell. -/
inductive PartyInput.Offends (creator : String) : PartyInput → DefinitionFault → Prop
  | foreignBuyer {p : PartyInput} (hrole : p.role = .buyer) (huser : p.user ≠ creator) :
      Offends creator p .foreignBuyer
  | creatorSeller {p : PartyInput} (hrole : p.role = .seller) (huser : p.user = creator) :
      Offends creator p .creatorSeller

/-- A list of entries that an escrow of this creator can have. -/
structure LegalEntries (creator : String) (entries : List PartyInput) : Prop where
  buyers : ∀ p ∈ entries, p.role = .buyer → p.user = creator
  sellers : ∀ p ∈ entries, p.role = .seller → p.user ≠ creator
  once : ∀ p, p ≠ ⟨creator, .buyer⟩ → entries.count p ≤ 1
  seller : entries.countP (fun p => p.role = .seller) ≤ 1

/-- What is held against a list of entries: the first of them that is wrong by itself; if there is none,
the first that comes again, buyers apart; and if there is none of these either, a second seller. -/
inductive Objection (creator : String) (entries : List PartyInput) : DefinitionFault → Prop
  | entry {before after : List PartyInput} {p : PartyInput} {f : DefinitionFault}
      (hsplit : entries = before ++ p :: after) (hp : p.Offends creator f)
      (hfirst : ∀ q ∈ before, ∀ g, ¬q.Offends creator g) : Objection creator entries f
  | repeated {before after : List PartyInput} {p : PartyInput}
      (hgood : ∀ q ∈ entries, ∀ g, ¬q.Offends creator g)
      (hsplit : entries = before ++ p :: after) (hrole : p.role ≠ .buyer) (hagain : p ∈ after)
      (hfirst : ∀ q ∈ before, q.role ≠ .buyer → entries.count q = 1) :
      Objection creator entries (.repeated p.user p.role)
  | secondSeller (hgood : ∀ q ∈ entries, ∀ g, ¬q.Offends creator g)
      (honce : ∀ q ∈ entries, q.role ≠ .buyer → entries.count q = 1)
      (htwo : 1 < entries.countP fun p => p.role = .seller) :
      Objection creator entries .secondSeller

/-- The parties that a legal list makes: the creator as the buyer, and the others as they are listed. -/
def lineup (creator : String) (entries : List PartyInput) : List Party :=
  ⟨creator, .buyer⟩ :: (entries.filter fun p => p.role ≠ .buyer).map fun p => ⟨p.user, p.role⟩

/-! ## Entries -/

section Entries

variable {creator : String} {entries : List PartyInput} {p : PartyInput} {f : DefinitionFault}

theorem roleFault?_eq_some_iff : roleFault? creator p = some f ↔ p.Offends creator f := by
  unfold roleFault?
  constructor
  · intro h
    split at h
    next hbuyer =>
      cases h
      exact .foreignBuyer hbuyer.1 hbuyer.2
    next =>
      split at h
      next hseller =>
        cases h
        exact .creatorSeller hseller.1 hseller.2
      next => cases h
  · rintro (⟨hrole, huser⟩ | ⟨hrole, huser⟩)
    · rw [if_pos ⟨hrole, huser⟩]
    · rw [if_neg fun h => Role.noConfusion (hrole.symm.trans h.1), if_pos ⟨hrole, huser⟩]

theorem roleFault?_eq_none_iff : roleFault? creator p = none ↔ ∀ f, ¬p.Offends creator f := by
  rw [Option.eq_none_iff_forall_ne_some]
  exact forall_congr' fun f => not_congr roleFault?_eq_some_iff

/-- Entries that are not wrong by themselves have nobody else buy, and somebody else sell. -/
theorem forall_not_offends_iff : (∀ q ∈ entries, ∀ g, ¬q.Offends creator g) ↔
    (∀ q ∈ entries, q.role = .buyer → q.user = creator) ∧
      ∀ q ∈ entries, q.role = .seller → q.user ≠ creator := by
  constructor
  · exact fun h => ⟨fun q hq hrole => not_not.mp fun huser => h q hq _ (.foreignBuyer hrole huser),
      fun q hq hrole huser => h q hq _ (.creatorSeller hrole huser)⟩
  · rintro ⟨hbuyers, hsellers⟩ q hq g (⟨hrole, huser⟩ | ⟨hrole, huser⟩)
    · exact huser (hbuyers q hq hrole)
    · exact hsellers q hq hrole huser

/-- The first entry that is wrong by itself. -/
theorem findSome?_roleFault?_eq_some_iff :
    entries.findSome? (roleFault? creator) = some f ↔ ∃ before p after,
      entries = before ++ p :: after ∧ p.Offends creator f ∧
        ∀ q ∈ before, ∀ g, ¬q.Offends creator g := by
  rw [List.findSome?_eq_some_iff]
  simp only [roleFault?_eq_some_iff, roleFault?_eq_none_iff]

/-- No entry is wrong by itself. -/
theorem findSome?_roleFault?_eq_none_iff : entries.findSome? (roleFault? creator) = none ↔
    ∀ q ∈ entries, ∀ g, ¬q.Offends creator g := by
  rw [List.findSome?_eq_none_iff]
  simp only [roleFault?_eq_none_iff]

/-- An entry with its role in words. -/
def PartyInput.told (p : PartyInput) : String × Json := (p.user, .text (word p.role))

theorem Role.ofValue_word (r : Role) : ofValue (.text (word r)) = .ok r := by
  simp only [ofValue, Role.ofWord?_word]

/-- Reading entries finds what judging them finds. -/
theorem screenEntries_told (creator : String) (entries : List PartyInput) :
    screenEntries creator (entries.map PartyInput.told) =
      match entries.findSome? (roleFault? creator) with
      | some f => .error (.escrow (.invalidDefinition f))
      | none => .ok entries := by
  induction entries with
  | nil => rfl
  | cons p rest ih =>
    simp only [List.map_cons, PartyInput.told, screenEntries, Role.ofValue_word, ih,
      List.findSome?_cons]
    cases roleFault? creator p with
    | some f => rfl
    | none => cases rest.findSome? (roleFault? creator) <;> rfl

end Entries

/-! ## Repetitions -/

section Repetitions

variable {entries : List PartyInput} {p : PartyInput}

/-- The pair that is found comes again, and none does that comes first in front of it. -/
theorem firstRepeated_eq_some_iff {l : List PartyInput} : firstRepeated l = some p ↔
    ∃ before after, l = before ++ p :: after ∧ p ∈ after ∧ ∀ q ∈ before, l.count q = 1 := by
  induction l with
  | nil => simp [firstRepeated]
  | cons a l ih =>
    rw [firstRepeated]
    by_cases ha : a ∈ l
    · rw [if_pos ha, Option.some.injEq]
      constructor
      · rintro rfl
        exact ⟨[], l, rfl, ha, fun _ hq => absurd hq List.not_mem_nil⟩
      · rintro ⟨before, after, hsplit, -, hfirst⟩
        cases before with
        | nil => exact (List.cons.inj hsplit).1
        | cons b before =>
          obtain rfl : a = b := (List.cons.inj hsplit).1
          have hcount := hfirst a List.mem_cons_self
          rw [List.count_cons_self, Nat.add_eq_right, List.count_eq_zero] at hcount
          exact absurd ha hcount
    · rw [if_neg ha, ih]
      -- What stands in front of the pair in the rest differs from the head, which does not come again.
      have hcount : ∀ q ∈ l, (a :: l).count q = l.count q := fun q hq =>
        List.count_cons_of_ne (ne_of_mem_of_not_mem hq ha).symm
      constructor
      · rintro ⟨before, after, rfl, hagain, hfirst⟩
        refine ⟨a :: before, after, rfl, hagain, fun q hq => ?_⟩
        rcases List.mem_cons.mp hq with rfl | hq
        · rw [List.count_cons_self, List.count_eq_zero.mpr ha]
        · rw [hcount q (List.mem_append_left _ hq), hfirst q hq]
      · rintro ⟨before, after, hsplit, hagain, hfirst⟩
        cases before with
        | nil =>
          obtain ⟨rfl, rfl⟩ := List.cons.inj hsplit
          exact absurd hagain ha
        | cons b before =>
          obtain ⟨rfl, rfl⟩ := List.cons.inj hsplit
          refine ⟨before, after, rfl, hagain, fun q hq => ?_⟩
          rw [← hcount q (List.mem_append_left _ hq)]
          exact hfirst q (List.mem_cons_of_mem _ hq)

theorem count_filter_buyer {q : PartyInput} (hq : q.role ≠ .buyer) :
    (entries.filter fun p => p.role ≠ .buyer).count q = entries.count q :=
  List.count_filter (decide_eq_true hq)

/-- Among the entries that are no buyers the same pair is found. -/
theorem firstRepeated_others_eq_some_iff :
    firstRepeated (entries.filter fun p => p.role ≠ .buyer) = some p ↔
      ∃ before after, entries = before ++ p :: after ∧ p.role ≠ .buyer ∧ p ∈ after ∧
        ∀ q ∈ before, q.role ≠ .buyer → entries.count q = 1 := by
  rw [firstRepeated_eq_some_iff]
  constructor
  · rintro ⟨before, after, hsplit, hagain, hfirst⟩
    obtain ⟨front, back, hentries, rfl, hback⟩ := List.filter_eq_append_iff.mp hsplit
    obtain ⟨skipped, rest, rfl, hskipped, hrole, rfl⟩ := List.filter_eq_cons_iff.mp hback
    refine ⟨front ++ skipped, rest, by rw [hentries, List.append_assoc], of_decide_eq_true hrole,
      List.mem_of_mem_filter hagain, fun q hq hqrole => ?_⟩
    rcases List.mem_append.mp hq with hq | hq
    · rw [← count_filter_buyer hqrole]
      exact hfirst q (List.mem_filter.mpr ⟨hq, decide_eq_true hqrole⟩)
    · exact absurd (decide_eq_true hqrole) (hskipped q hq)
  · rintro ⟨before, after, hsplit, hrole, hagain, hfirst⟩
    refine ⟨before.filter fun p => p.role ≠ .buyer, after.filter fun p => p.role ≠ .buyer, ?_,
      List.mem_filter.mpr ⟨hagain, decide_eq_true hrole⟩, fun q hq => ?_⟩
    · rw [hsplit, List.filter_append, List.filter_cons, if_pos (decide_eq_true hrole)]
    · obtain ⟨hq, hqrole⟩ := List.mem_filter.mp hq
      rw [count_filter_buyer (of_decide_eq_true hqrole)]
      exact hfirst q hq (of_decide_eq_true hqrole)

/-- Nothing is found where nothing but buyers comes again. -/
theorem firstRepeated_others_eq_none_iff :
    firstRepeated (entries.filter fun p => p.role ≠ .buyer) = none ↔
      ∀ q ∈ entries, q.role ≠ .buyer → entries.count q = 1 := by
  rw [firstRepeated_eq_none_iff, List.nodup_iff_count_eq_one]
  constructor
  · intro h q hq hrole
    rw [← count_filter_buyer hrole]
    exact h q (List.mem_filter.mpr ⟨hq, decide_eq_true hrole⟩)
  · intro h q hq
    obtain ⟨hq, hrole⟩ := List.mem_filter.mp hq
    rw [count_filter_buyer (of_decide_eq_true hrole)]
    exact h q hq (of_decide_eq_true hrole)

/-- Sellers are no buyers. -/
theorem length_sellers_others : ((entries.filter fun p => p.role ≠ .buyer).filter fun p =>
    p.role = .seller).length = entries.countP fun p => p.role = .seller := by
  rw [List.filter_filter, List.countP_eq_length_filter]
  congr 1
  refine List.filter_congr fun p _ => ?_
  cases p.role <;> rfl

end Repetitions

/-! ## Lists -/

section Lists

variable {creator : String} {entries : List PartyInput}

/-- A list is legal when no entry is wrong by itself, none but buyers comes again, and one at most
sells. -/
theorem legalEntries_iff : LegalEntries creator entries ↔
    (∀ q ∈ entries, ∀ g, ¬q.Offends creator g) ∧
      (∀ q ∈ entries, q.role ≠ .buyer → entries.count q = 1) ∧
      entries.countP (fun p => p.role = .seller) ≤ 1 := by
  rw [forall_not_offends_iff]
  constructor
  · intro h
    refine ⟨⟨h.buyers, h.sellers⟩, fun q hq hrole => ?_, h.seller⟩
    have honce := h.once q fun heq => hrole (congrArg PartyInput.role heq)
    exact Nat.le_antisymm honce (List.count_pos_iff.mpr hq)
  · rintro ⟨⟨hbuyers, hsellers⟩, honce, hseller⟩
    refine ⟨hbuyers, hsellers, fun q hne => ?_, hseller⟩
    by_cases hq : q ∈ entries
    · have hrole : q.role ≠ .buyer := fun hrole => hne (by
        rw [← hbuyers q hq hrole, ← hrole])
      exact Nat.le_of_eq (honce q hq hrole)
    · rw [List.count_eq_zero.mpr hq]
      exact Nat.zero_le 1

/-- A list is legal, or something is held against it. -/
theorem legalEntries_or_objection (creator : String) (entries : List PartyInput) :
    LegalEntries creator entries ∨ ∃ f, Objection creator entries f := by
  cases hfault : entries.findSome? (roleFault? creator) with
  | some f =>
    obtain ⟨before, p, after, hsplit, hp, hfirst⟩ := findSome?_roleFault?_eq_some_iff.mp hfault
    exact .inr ⟨f, .entry hsplit hp hfirst⟩
  | none =>
    have hgood := findSome?_roleFault?_eq_none_iff.mp hfault
    cases hrepeated : firstRepeated (entries.filter fun p => p.role ≠ .buyer) with
    | some p =>
      obtain ⟨before, after, hsplit, hrole, hagain, hfirst⟩ :=
        firstRepeated_others_eq_some_iff.mp hrepeated
      exact .inr ⟨_, .repeated hgood hsplit hrole hagain hfirst⟩
    | none =>
      have honce := firstRepeated_others_eq_none_iff.mp hrepeated
      by_cases htwo : 1 < entries.countP fun p => p.role = .seller
      · exact .inr ⟨_, .secondSeller hgood honce htwo⟩
      · exact .inl (legalEntries_iff.mpr ⟨hgood, honce, Nat.le_of_not_lt htwo⟩)

/-- A legal list makes a line-up. -/
theorem LegalEntries.formParties_eq (h : LegalEntries creator entries) :
    formParties creator entries = .ok (lineup creator entries) := by
  obtain ⟨hgood, honce, hseller⟩ := legalEntries_iff.mp h
  simp only [formParties, findSome?_roleFault?_eq_none_iff.mpr hgood,
    firstRepeated_others_eq_none_iff.mpr honce, length_sellers_others,
    if_neg (Nat.not_lt.mpr hseller)]
  rfl

/-- A list is refused for what is held against it. -/
theorem Objection.formParties_eq {f : DefinitionFault} (h : Objection creator entries f) :
    formParties creator entries = .error f := by
  cases h with
  | entry hsplit hp hfirst =>
    simp only [formParties, findSome?_roleFault?_eq_some_iff.mpr ⟨_, _, _, hsplit, hp, hfirst⟩]
  | repeated hgood hsplit hrole hagain hfirst =>
    simp only [formParties, findSome?_roleFault?_eq_none_iff.mpr hgood,
      firstRepeated_others_eq_some_iff.mpr ⟨_, _, hsplit, hrole, hagain, hfirst⟩]
  | secondSeller hgood honce htwo =>
    simp only [formParties, findSome?_roleFault?_eq_none_iff.mpr hgood,
      firstRepeated_others_eq_none_iff.mpr honce, length_sellers_others, if_pos htwo]

end Lists

/-- The parties of a new escrow are formed exactly from the legal lists: the creator as the buyer, then
the entries that are no buyers in their order. Every other list is refused as a definition, for exactly
one thing that is held against it. With the roles told in words it comes to the same. -/
theorem lineup_decided (creator : String) (entries : List PartyInput) :
    (∀ ps, formParties creator entries = .ok ps ↔
      LegalEntries creator entries ∧ ps = lineup creator entries) ∧
    (∀ f, formParties creator entries = .error f ↔ Objection creator entries f) ∧
    (do
      let es ← screenEntries creator (entries.map PartyInput.told)
      (formParties creator es).mapError fun f => Failure.escrow (.invalidDefinition f)) =
      (formParties creator entries).mapError fun f => Failure.escrow (.invalidDefinition f) := by
  refine ⟨fun ps => ⟨fun h => ?_, ?_⟩, fun f => ⟨fun h => ?_, Objection.formParties_eq⟩, ?_⟩
  · rcases legalEntries_or_objection creator entries with hlegal | ⟨g, hg⟩
    · rw [hlegal.formParties_eq] at h
      exact ⟨hlegal, (Except.ok.inj h).symm⟩
    · rw [hg.formParties_eq] at h
      cases h
  · rintro ⟨hlegal, rfl⟩
    exact hlegal.formParties_eq
  · rcases legalEntries_or_objection creator entries with hlegal | ⟨g, hg⟩
    · rw [hlegal.formParties_eq] at h
      cases h
    · rw [hg.formParties_eq] at h
      rwa [← Except.error.inj h]
  · rw [screenEntries_told]
    cases hfault : entries.findSome? (roleFault? creator) with
    | some f =>
      rw [formParties, hfault]
      rfl
    | none => rfl

/-- A user may arbitrate and sell, and the creator may be listed as the buyer any number of times. -/
example : formParties "ann" [⟨"ann", .buyer⟩, ⟨"bob", .seller⟩, ⟨"ann", .buyer⟩, ⟨"bob", .arbitrator⟩] =
    .ok [⟨"ann", .buyer⟩, ⟨"bob", .seller⟩, ⟨"bob", .arbitrator⟩] := by decide

/-- Of several things the first kind is held against a list, wherever it stands. -/
example : formParties "ann" [⟨"bob", .seller⟩, ⟨"bob", .seller⟩, ⟨"eve", .buyer⟩] =
    .error .foreignBuyer := by decide

end Custody
