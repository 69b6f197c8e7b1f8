import Custody.Proofs.Nearest
import Custody.Schema.Leaf
import Custody.Store.Table

/-!
# Amounts that requests let through

A request bounds an amount by its digits, and by either of two ways to write it: as it came, or in the
shortest form of what arithmetic gives for it, in whatever context it is done. The bounds come to this: the
amount is below `10^13`, and what is given for it is a whole number of units of `10^-7`. The amount itself
is one where arithmetic keeps it. For the domain it lies above zero; and so it does for the store, which
keeps the nearest binary value, if it is no less than a unit.

> `inUnits_of_keeps`: an amount without a fault that is kept as it is.
> `amountFault?_eq_none_iff`: the bounds on the digits, in terms of the number.
> `amount_eq_ok_iff`: the amounts that a request lets through.
> `amountPositive_of_inUnits`: the ones that the store takes.
-/

namespace Custody

open Decimal (digitCount scaled)

/-- A context has room for numbers of 20 digits, 7 of them behind the point. -/
structure Decimal.Context.Roomy (ctx : Decimal.Context) : Prop where
  digits : 20 ≤ ctx.precision
  places : ctx.leastPlace ≤ -7
  most : 13 ≤ ctx.mostExponent

/-- A context in which no number that can be written is lost: it has room for each of them, or refuses to
round. -/
def Decimal.Context.Lossless (ctx : Decimal.Context) : Prop :=
  ctx.refusesInexact = true ∨
    Decimal.maxDigits ≤ ctx.precision ∧ ctx.leastPlace ≤ Decimal.minExponent

/-- Whether a number is a whole number of units of `10^-7`. -/
def InUnits (v : ℚ) : Prop := ∃ m : Nat, v * 10 ^ 7 = m

theorem inUnits_iff {v : ℚ} : InUnits v ↔ ∃ m, v = scaled m (-7) := by
  refine exists_congr fun m => ?_
  rw [scaled, zpow_neg, eq_mul_inv_iff_mul_eq₀ (by norm_num)]
  rfl

section Digits

variable {ctx : Decimal.Context} {c : Nat} {e k : Int} {w : ℚ}

/-! ## Digits and places -/

theorem places_le_iff : (digitsAndPlaces c e).2 ≤ amountPlaces ↔ -7 ≤ e := by
  unfold digitsAndPlaces amountPlaces
  split <;> simp only <;> omega

/-- What stands before the point is what the size of a number tells. -/
theorem wholeDigits_le_iff : (digitsAndPlaces c e).1 - (digitsAndPlaces c e).2 ≤
    amountDigits - amountPlaces ↔ digitCount c + e ≤ 13 := by
  have hpos := Decimal.digitCount_pos c
  unfold digitsAndPlaces amountDigits amountPlaces
  split <;> simp only <;> omega

/-- A number with few places has few digits, if few of them stand before the point. -/
theorem digits_le (hplaces : -7 ≤ e) (hwhole : digitCount c + e ≤ 13 ∨
    0 ≤ e ∧ digitCount c + e ≤ 20) : (digitsAndPlaces c e).1 ≤ amountDigits := by
  unfold digitsAndPlaces amountDigits
  split <;> simp only <;> omega

/-- An amount has no fault where each bound is kept, as it is written or in its shortest form. -/
theorem amountFault?_eq_none_iff_or (ctx : Decimal.Context) (c : Nat) (e : Int) :
    let p := (Decimal.normalized? ctx c e).getD (c, e)
    amountFault? ctx c e = none ↔
      ((digitsAndPlaces c e).1 ≤ amountDigits ∨ (digitsAndPlaces p.1 p.2).1 ≤ amountDigits) ∧
      (-7 ≤ e ∨ -7 ≤ p.2) ∧ (digitCount c + e ≤ 13 ∨ digitCount p.1 + p.2 ≤ 13) := by
  intro p
  have hfault : amountFault? ctx c e =
      if amountDigits < (digitsAndPlaces c e).1 ∧ amountDigits < (digitsAndPlaces p.1 p.2).1 then
        some .maxDigits
      else if amountPlaces < (digitsAndPlaces c e).2 ∧ amountPlaces < (digitsAndPlaces p.1 p.2).2 then
        some .maxPlaces
      else if amountDigits - amountPlaces < (digitsAndPlaces c e).1 - (digitsAndPlaces c e).2 ∧
          amountDigits - amountPlaces < (digitsAndPlaces p.1 p.2).1 - (digitsAndPlaces p.1 p.2).2 then
        some .wholeDigits
      else none := by
    cases hn : Decimal.normalized? ctx c e <;>
      simp only [amountFault?, hn, p, Option.getD_some, Option.getD_none]
  rw [hfault, ← places_le_iff (c := c), ← places_le_iff (c := p.1), ← wholeDigits_le_iff,
    ← wholeDigits_le_iff]
  split
  next => exact iff_of_false nofun (by omega)
  next =>
    split
    next => exact iff_of_false nofun (by omega)
    next =>
      split
      next => exact iff_of_false nofun (by omega)
      next => exact iff_of_true rfl (by omega)

theorem leastPlace_le (ctx : Decimal.Context) : ctx.leastPlace ≤ 13 := by
  have hpos := ctx.precision_pos
  have hle := ctx.leastExponent_nonpos
  unfold Decimal.Context.leastPlace
  omega

/-- What is given for an amount has few digits before the point only if the amount has. -/
theorem digitCount_add_le (hc : c ≠ 0) (h : amountFault? ctx c e = none) : digitCount c + e ≤ 13 := by
  obtain ⟨-, -, hle | hle⟩ := (amountFault?_eq_none_iff_or ctx c e).mp h
  · exact hle
  · cases hn : Decimal.normalized? ctx c e with
    | none => rwa [hn] at hle
    | some p =>
      rw [hn] at hle
      by_contra hlarge
      have hv : (10 : ℚ) ^ (13 : Int) ≤ scaled c e :=
        le_of_not_gt fun hlt => hlarge ((Decimal.scaled_lt_pow_iff hc).mp hlt)
      have hw := (Decimal.normalized?_gives hc hn).1.1.pow_le (leastPlace_le ctx) hv
      have hlt := Decimal.scaled_lt_pow p.1 p.2
      have hpow := Decimal.ten_zpow_lt_iff.mp (lt_of_le_of_lt hw hlt)
      simp only [Option.getD_some] at hle
      omega

theorem inUnits_scaled (he : -7 ≤ e) : InUnits (scaled c e) := by
  refine inUnits_iff.mpr ⟨c * 10 ^ (e + 7).toNat, ?_⟩
  rw [Decimal.scaled_mul_pow, show (-7 : Int) + ((e + 7).toNat : Int) = e by omega]

/-- An amount without a fault has few places as it is written, or what is given for it has. -/
theorem exists_gives_of_fault (hc : c ≠ 0) (h : amountFault? ctx c e = none) :
    -7 ≤ e ∨ ∃ w, ctx.Gives (scaled c e) w ∧ InUnits w := by
  have hbounds := (amountFault?_eq_none_iff_or ctx c e).mp h
  cases hn : Decimal.normalized? ctx c e with
  | none =>
    rw [hn] at hbounds
    exact .inl (or_self_iff.mp hbounds.2.1)
  | some p =>
    rw [hn] at hbounds
    exact hbounds.2.1.imp_right fun he => ⟨_, (Decimal.normalized?_gives hc hn).1, inUnits_scaled he⟩

/-- An amount without a fault that is kept as it is. -/
theorem inUnits_of_keeps (hc : c ≠ 0) (h : amountFault? ctx c e = none)
    (hkeeps : ctx.Keeps (scaled c e)) : InUnits (scaled c e) := by
  rcases exists_gives_of_fault hc h with he | ⟨w, hgives, hunits⟩
  · exact inUnits_scaled he
  · rwa [← hkeeps.eq_of_gives hgives]

/-- Where there is room, a number with few digits and few places is kept as it is. -/
theorem Decimal.Context.Roomy.gives_self (h : ctx.Roomy) (hc : c ≠ 0) (hdigits : digitCount c ≤ 20)
    (he : -7 ≤ e) : ctx.Gives (scaled c e) (scaled c e) := by
  have hmany := h.digits
  have hplaces := h.places
  refine ⟨Decimal.roundsTo_self_of_excess hc ?_, fun _ => rfl⟩
  unfold Decimal.excess
  omega

/-- A multiple of the unit that is no larger than `10^13` has few digits. -/
theorem digits_le_of_units (hlast : c % 10 ≠ 0) (he : -7 ≤ e) (h : scaled c e ≤ 10 ^ (13 : Int)) :
    (digitsAndPlaces c e).1 ≤ amountDigits := by
  have hc : c ≠ 0 := fun h0 => hlast (by rw [h0])
  have hpow := Decimal.ten_zpow_le_iff.mp (le_trans (Decimal.pow_le_scaled hc e) h)
  refine digits_le he ?_
  rcases Int.lt_or_le e 0 with hneg | hpos
  · -- Only the bound itself has one digit more, and it needs no places.
    left
    refine (Decimal.scaled_lt_pow_iff hc).mp (lt_of_le_of_ne h fun heq => ?_)
    have hbig := (Decimal.exists_scaled_iff (k := 13) hlast).mp ⟨1, heq.trans (by simp [scaled])⟩
    omega
  · exact .inr ⟨hpos, by omega⟩

/-- The bounds on the digits of an amount: it is below `10^13`, and what arithmetic gives for it is in
units of the last place that is allowed. -/
theorem amountFault?_eq_none_iff (hroom : ctx.Roomy) (hc : c ≠ 0) :
    amountFault? ctx c e = none ↔
      scaled c e < 10 ^ (13 : Int) ∧ ∃ w, ctx.Gives (scaled c e) w ∧ InUnits w := by
  constructor
  · intro h
    have hle := digitCount_add_le hc h
    refine ⟨(Decimal.scaled_lt_pow_iff hc).mpr hle, ?_⟩
    rcases exists_gives_of_fault hc h with he | hgives
    · -- Few places and few digits before them: all is kept.
      exact ⟨_, hroom.gives_self hc (by omega) he, inUnits_scaled he⟩
    · exact hgives
  · rintro ⟨hbelow, w, hw, hunits⟩
    have hle := (Decimal.scaled_lt_pow_iff hc).mp hbelow
    have hvast : scaled c e ≤ 10 ^ ctx.mostExponent :=
      hbelow.le.trans (Decimal.ten_zpow_le_iff.mpr hroom.most)
    have hsome := Decimal.normalized?_ne_none hc hvast fun href => by
      have hself := hw.1
      rwa [hw.2 href] at hself
    obtain ⟨⟨c', e'⟩, hn⟩ := Option.ne_none_iff_exists'.mp hsome
    obtain ⟨hgives, hform⟩ := Decimal.normalized?_gives hc hn
    obtain rfl := hw.1.unique hgives.1
    refine (amountFault?_eq_none_iff_or ctx c e).mpr ?_
    rw [hn, Option.getD_some]
    -- The shortest form keeps the bounds on digits and places, the amount the one before the point.
    refine ⟨.inr ?_, .inr ?_, .inl hle⟩
    all_goals rcases hform with hlast | ⟨rfl, rfl⟩
    · exact digits_le_of_units hlast ((Decimal.exists_scaled_iff hlast).mp (inUnits_iff.mp hunits))
        (hw.1.le_pow (leastPlace_le ctx) hbelow.le)
    · decide
    · exact (Decimal.exists_scaled_iff hlast).mp (inUnits_iff.mp hunits)
    · decide

end Digits

/-! ## Amounts -/

section Amounts

variable {ctx : Decimal.Context} {src : Source} {v : Json} {d : Decimal} {w : ℚ}

theorem Decimal.value_pos_iff :
    0 < d.value ↔ ∃ c e, d = .finite false c e ∧ c ≠ 0 := by
  constructor
  · intro h
    cases d with
    | infinite | undefined => exact absurd h (lt_irrefl 0)
    | finite s c e =>
      cases s with
      | true => exact absurd (neg_pos.mp h) (not_lt.mpr (scaled_nonneg c e))
      | false =>
        exact ⟨c, e, rfl, scaled_pos_iff.mp h⟩
  · rintro ⟨c, e, rfl, hc⟩
    exact scaled_pos_iff.mpr hc

/-- A request lets through the finite decimals above zero without a fault. -/
theorem amount_eq_ok_iff_fault :
    amount ctx src v = .ok d ↔ decimal src v = .ok d ∧
      ∃ c e, d = .finite false c e ∧ c ≠ 0 ∧ amountFault? ctx c e = none := by
  unfold amount
  cases hd : decimal src v with
  | error => exact iff_of_false nofun fun h => nomatch h.1
  | ok d' =>
    cases d' with
    | infinite | undefined =>
      refine iff_of_false nofun ?_
      rintro ⟨heq, _, _, rfl, -⟩
      cases heq
    | finite s c e =>
      cases hfault : amountFault? ctx c e with
      | some f =>
        refine iff_of_false (by simp only [hfault]; exact nofun) ?_
        rintro ⟨heq, _, _, rfl, -, hnone⟩
        cases heq
        rw [hfault] at hnone
        cases hnone
      | none =>
        by_cases hpos : s = true ∨ c = 0
        · refine iff_of_false (by simp only [hfault, if_pos hpos]; exact nofun) ?_
          rintro ⟨heq, _, _, rfl, hc, -⟩
          cases heq
          exact hpos.elim nofun hc
        · simp only [hfault, if_neg hpos]
          rw [not_or, Bool.not_eq_true] at hpos
          refine ⟨fun h => ⟨h, c, e, ?_, hpos.2, hfault⟩, And.left⟩
          cases h
          rw [hpos.1]

/-- The amounts that a request lets through: the numbers above zero and below `10^13` for which
arithmetic gives a whole number of units. -/
theorem amount_eq_ok_iff (hroom : ctx.Roomy) :
    amount ctx src v = .ok d ↔ decimal src v = .ok d ∧ 0 < d.value ∧ d.value < 10 ^ (13 : Int) ∧
      ∃ w, ctx.Gives d.value w ∧ InUnits w := by
  rw [amount_eq_ok_iff_fault]
  refine and_congr_right fun _ => ?_
  rw [Decimal.value_pos_iff]
  constructor
  · rintro ⟨c, e, rfl, hc, hfault⟩
    exact ⟨⟨c, e, rfl, hc⟩, (amountFault?_eq_none_iff hroom hc).mp hfault⟩
  · rintro ⟨⟨c, e, rfl, hc⟩, hbounds⟩
    exact ⟨c, e, rfl, hc, (amountFault?_eq_none_iff hroom hc).mpr hbounds⟩

/-- An amount that a request lets through is one for the domain. -/
theorem compare?_zero_of_amount (h : amount ctx src v = .ok d) :
    d.compare? Decimal.zero = some .gt ∧ amountPresent (some d) = true := by
  obtain ⟨-, c, e, rfl, hc, -⟩ := amount_eq_ok_iff_fault.mp h
  exact ⟨by simp [Decimal.compare?, Decimal.zero, hc], rfl⟩

/-- So is one of some units for the store. -/
theorem amountPositive_of_inUnits (hpos : 0 < d.value) (hbelow : d.value < 10 ^ (13 : Int))
    (hunits : InUnits d.value) : amountPositive (some d) = true := by
  obtain ⟨c, e, rfl, hc⟩ := Decimal.value_pos_iff.mp hpos
  change 0 < scaled c e at hpos
  change scaled c e < 10 ^ (13 : Int) at hbelow
  have hle : digitCount c + e ≤ 13 := (Decimal.scaled_lt_pow_iff hc).mp hbelow
  obtain ⟨m, hm⟩ := inUnits_iff.mp hunits
  change scaled c e = scaled m (-7) at hm
  have hm0 : m ≠ 0 := Decimal.scaled_pos_iff.mp (hm ▸ hpos)
  have hunit := Decimal.pow_le_scaled hm0 (-7)
  rw [← hm] at hunit
  have hlow := Decimal.ten_zpow_lt_iff.mp (lt_of_le_of_lt hunit (Decimal.scaled_lt_pow c e))
  have hdigits := Decimal.digitCount_pos m
  exact Binary64.ofScientific_isPositive hc (by omega) (by omega)

end Amounts

end Custody
