import Custody.Proofs.Rounding

/-!
# Comparing decimals

Decimals are compared digit by digit. Where their leading digits stand at different places these decide, and
otherwise the coefficients are brought to one exponent. Either way it is the numbers that are compared: how
they are written, with which exponent and with how many zeros at the end, makes no difference, and neither
does the sign of a zero.

> `compareMagnitude_eq`: magnitudes are compared as numbers.
> `compare?_eq`: so are all finite decimals.
> `equals?_eq`: and they are equal just if they are the same number.
-/

namespace Custody

namespace Decimal

section Magnitudes

variable {c d : Nat} {e f : Int}

/-- A number is smaller than one whose leading digit stands at a higher place. -/
theorem scaled_lt_of_place_lt (hd : d ≠ 0) (h : digitCount c + e < digitCount d + f) :
    scaled c e < scaled d f :=
  calc scaled c e < 10 ^ (digitCount c + e) := scaled_lt_pow c e
    _ ≤ 10 ^ (digitCount d + f - 1) := ten_zpow_le_iff.mpr (by omega)
    _ ≤ scaled d f := pow_le_scaled hd f

/-- Numbers of one exponent are compared by their coefficients. -/
theorem compare_scaled (c d : Nat) (e : Int) : compare (scaled c e) (scaled d e) = compare c d := by
  have hlt {a b : Nat} (h : a < b) : scaled a e < scaled b e :=
    lt_of_le_of_ne (scaled_le_scaled h.le e) fun heq => h.ne (scaled_injective heq)
  rcases Nat.lt_trichotomy c d with h | rfl | h
  · rw [compare_lt_iff_lt.mpr h, compare_lt_iff_lt.mpr (hlt h)]
  · rw [compare_eq_iff_eq.mpr rfl, compare_eq_iff_eq.mpr rfl]
  · rw [compare_gt_iff_gt.mpr h, compare_gt_iff_gt.mpr (hlt h)]

/-- A number with the zeros that bring it to a lower exponent. -/
theorem scaled_lower {g : Int} (h : g ≤ e) : scaled (c * tenTo (e - g).toNat) g = scaled c e := by
  have hexponent : g + ((e - g).toNat : Int) = e := by omega
  rw [show tenTo (e - g).toNat = 10 ^ (e - g).toNat from rfl, scaled_mul_pow, hexponent]

/-- Magnitudes are compared as the numbers that they are. -/
theorem compareMagnitude_eq (c d : Nat) (e f : Int) :
    compareMagnitude c e d f = compare (scaled c e) (scaled d f) := by
  unfold compareMagnitude
  by_cases hc : c = 0
  · by_cases hd : d = 0
    · rw [if_pos ⟨hc, hd⟩, hc, hd, scaled_zero, scaled_zero, compare_eq_iff_eq.mpr rfl]
    · have hlt : scaled c e < scaled d f := by
        rw [hc, scaled_zero]
        exact scaled_pos_iff.mpr hd
      rw [if_neg fun h => hd h.2, if_pos hc, compare_lt_iff_lt.mpr hlt]
  · by_cases hd : d = 0
    · have hgt : scaled d f < scaled c e := by
        rw [hd, scaled_zero]
        exact scaled_pos_iff.mpr hc
      rw [if_neg fun h => hc h.1, if_neg hc, if_pos hd, compare_gt_iff_gt.mpr hgt]
    · rw [if_neg fun h => hc h.1, if_neg hc, if_neg hd]
      -- The leading digits decide, or they stand at the same place.
      rcases lt_trichotomy ((digitCount c : Int) + e) (digitCount d + f) with h | h | h
      · rw [if_pos h, compare_lt_iff_lt.mpr (scaled_lt_of_place_lt hd h)]
      · rw [if_neg h.not_lt, if_neg h.symm.not_lt]
        split
        next hle => rw [← compare_scaled _ _ e, scaled_lower hle]
        next hle => rw [← compare_scaled _ _ f, scaled_lower (not_le.mp hle).le]
      · rw [if_neg h.not_gt, if_pos h, compare_gt_iff_gt.mpr (scaled_lt_of_place_lt hc h)]

/-! ## Signs -/

theorem value_zero (s : Bool) (e : Int) : (finite s 0 e).value = 0 := by
  cases s with
  | false => exact scaled_zero e
  | true => exact neg_eq_zero.mpr (scaled_zero e)

theorem value_pos (hc : c ≠ 0) (e : Int) : 0 < (finite false c e).value := scaled_pos_iff.mpr hc

theorem value_neg (hc : c ≠ 0) (e : Int) : (finite true c e).value < 0 :=
  neg_lt_zero.mpr (scaled_pos_iff.mpr hc)

/-- Below zero the larger magnitude is the smaller number. -/
theorem compare_neg (x y : ℚ) : compare (-x) (-y) = compare y x := by
  rcases lt_trichotomy x y with h | rfl | h
  · rw [compare_gt_iff_gt.mpr h, compare_gt_iff_gt.mpr (neg_lt_neg h)]
  · rw [compare_eq_iff_eq.mpr rfl, compare_eq_iff_eq.mpr rfl]
  · rw [compare_lt_iff_lt.mpr h, compare_lt_iff_lt.mpr (neg_lt_neg h)]

end Magnitudes

/-- Finite decimals are compared as the numbers that they are. -/
theorem compare?_eq {a b : Decimal} (ha : a.isFinite = true) (hb : b.isFinite = true) :
    compare? a b = some (compare a.value b.value) := by
  cases a with
  | infinite => exact nomatch ha
  | undefined => exact nomatch ha
  | finite s c e =>
    cases b with
    | infinite => exact nomatch hb
    | undefined => exact nomatch hb
    | finite t d f =>
      unfold compare?
      dsimp only
      by_cases hc : c = 0
      · by_cases hd : d = 0
        · -- Zeros are the same whatever their signs.
          rw [if_pos ⟨hc, hd⟩, hc, hd, value_zero, value_zero, compare_eq_iff_eq.mpr rfl]
        · rw [if_neg fun h => hd h.2, if_pos hc, hc, value_zero]
          cases t with
          | false => rw [compare_lt_iff_lt.mpr (value_pos hd f), if_neg Bool.false_ne_true]
          | true => rw [compare_gt_iff_gt.mpr (value_neg hd f), if_pos rfl]
      · by_cases hd : d = 0
        · rw [if_neg fun h => hc h.1, if_neg hc, if_pos hd, hd, value_zero]
          cases s with
          | false => rw [compare_gt_iff_gt.mpr (value_pos hc e), if_neg Bool.false_ne_true]
          | true => rw [compare_lt_iff_lt.mpr (value_neg hc e), if_pos rfl]
        · rw [if_neg fun h => hc h.1, if_neg hc, if_neg hd]
          cases s with
          | false =>
            cases t with
            | false => exact congrArg some (compareMagnitude_eq c d e f)
            | true =>
              have hlt := (value_neg hd f).trans (value_pos hc e)
              rw [compare_gt_iff_gt.mpr hlt]
          | true =>
            cases t with
            | false =>
              have hlt := (value_neg hc e).trans (value_pos hd f)
              rw [compare_lt_iff_lt.mpr hlt]
            | true =>
              exact congrArg some ((compareMagnitude_eq d c f e).trans (compare_neg _ _).symm)

/-- Finite decimals are equal just if they are the same number. -/
theorem equals?_eq {a b : Decimal} (ha : a.isFinite = true) (hb : b.isFinite = true) :
    equals? a b = some (decide (a.value = b.value)) := by
  have hquiet {d : Decimal} (hd : d.isFinite = true) : d.isSignaling = false := by
    cases d with
    | finite => rfl
    | infinite => rfl
    | undefined => exact nomatch hd
  unfold equals?
  rw [hquiet ha, hquiet hb, compare?_eq ha hb]
  by_cases h : a.value = b.value
  · rw [compare_eq_iff_eq.mpr h, decide_eq_true h]
    rfl
  · have hne : compare a.value b.value ≠ .eq := mt compare_eq_iff_eq.mp h
    rw [decide_eq_false h]
    simp [hne]

end Decimal

end Custody
