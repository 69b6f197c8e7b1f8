import Mathlib.Data.Nat.Cast.Order.Field
import Custody.Proofs.Rounding

/-!
# Nearest binary values

The store keeps of a number the nearest value of the binary format. A number that is not minute has one
above zero, and none is much larger than its number. The numbers far outside the format, which are told by
their digits, are told rightly.

> `nearest_isPositive`: a number within the format does not vanish.
> `exists_nearest_eq`: a nearest value is at most twice its number, but for a step.
> `ofScientific_cases`: the numbers that are told by their digits.
-/

namespace Custody

theorem twoTo_eq (n : Nat) : twoTo n = 2 ^ n := rfl

theorem tenTo_cast (n : Nat) : (tenTo n : ℚ) = 10 ^ (n : Int) := by
  rw [zpow_natCast]
  exact Nat.cast_pow 10 n

/-- Rounding a quotient changes it by one at most. -/
theorem rounding_bounds (q r d : Nat) :
    q ≤ (if 2 * r < d then q else if d < 2 * r then q + 1 else if q % 2 = 0 then q else q + 1) ∧
      (if 2 * r < d then q else if d < 2 * r then q + 1 else if q % 2 = 0 then q else q + 1) ≤
        q + 1 := by
  split
  next => omega
  next =>
    split
    next => omega
    next => split <;> omega

namespace Binary64

/-! ## Nearest values -/

theorem toRatio?_nothing (e : Int) : ∃ d, 0 < d ∧ (finite false 0 e).toRatio? = some (0, d) := by
  by_cases he : 0 ≤ e
  · exact ⟨1, Nat.one_pos, by simp [toRatio?, he]⟩
  · exact ⟨twoTo (-e).toNat, twoTo_pos _, by simp [toRatio?, he]⟩

theorem isPositive_finite {m : Nat} (h : 0 < m) (e : Int) :
    (finite false m e).isPositive = true := by
  have hm : (0 : Int) < m := Int.natCast_pos.mpr h
  have hnum : (0 : Int) < (if 0 ≤ e then ((m * twoTo e.toNat : Nat) : Int) else m) := by
    split
    · exact Int.natCast_pos.mpr (Nat.mul_pos h (twoTo_pos _))
    · exact hm
  have hfinite : (finite false m e).toRatio? =
      some (if 0 ≤ e then ((m * twoTo e.toNat : Nat) : Int) else m,
        if 0 ≤ e then 1 else twoTo (-e).toNat) := rfl
  obtain ⟨d, hd, hzero⟩ : ∃ d, 0 < d ∧ zero.toRatio? = some (0, d) := toRatio?_nothing _
  have hgt := Int.compare_eq_gt.mpr (Int.mul_pos hnum (Int.natCast_pos.mpr hd))
  have hcompare : compare? (finite false m e) zero = some .gt := by
    unfold zero at hzero ⊢
    rw [compare?, hfinite, hzero]
    show some (compare (_ * (d : Int)) (0 * _)) = _
    rw [Int.zero_mul, hgt]
  exact decide_eq_true hcompare

/-- A fraction has at least one step on a grid that is no coarser than its leading digit. -/
theorem scaledFloor_pos {num den : Nat} {e : Int} (hnum : num ≠ 0) (hden : 0 < den)
    (he : e ≤ (Nat.log2 num : Int) - Nat.log2 den - 1) : 0 < scaledFloor num den e := by
  have hlow : 2 ^ Nat.log2 num ≤ num := Nat.log2_self_le hnum
  have hhigh : den < 2 ^ (Nat.log2 den + 1) := Nat.lt_log2_self
  unfold scaledFloor
  rw [twoTo_eq, twoTo_eq]
  split
  next h0 =>
    have hpow : 2 ^ (Nat.log2 den + 1) * 2 ^ e.toNat ≤ 2 ^ Nat.log2 num := by
      rw [← Nat.pow_add]
      exact Nat.pow_le_pow_right (by decide) (by omega)
    refine Nat.div_pos ?_ (Nat.mul_pos hden (Nat.two_pow_pos _))
    exact Nat.le_trans (Nat.mul_le_mul_right _ (Nat.le_of_lt hhigh)) (Nat.le_trans hpow hlow)
  next h0 =>
    have hpow : 2 ^ (Nat.log2 den + 1) ≤ 2 ^ Nat.log2 num * 2 ^ (-e).toNat := by
      rw [← Nat.pow_add]
      exact Nat.pow_le_pow_right (by decide) (by omega)
    refine Nat.div_pos ?_ hden
    exact Nat.le_trans (Nat.le_of_lt hhigh) (Nat.le_trans hpow (Nat.mul_le_mul_right _ hlow))

/-- Rounding to the nearest goes down to the step below or up to the one above. -/
theorem scaledRound_bounds (num den : Nat) (e : Int) :
    scaledFloor num den e ≤ scaledRound num den e ∧
      scaledRound num den e ≤ scaledFloor num den e + 1 := by
  unfold scaledFloor scaledRound
  by_cases h : 0 ≤ e
  · simp only [if_pos h]
    exact rounding_bounds ..
  · simp only [if_neg h]
    exact rounding_bounds ..

/-- The grid of a fraction that is not minute is no coarser than its leading digit. -/
theorem gridExponent_le {num den : Nat}
    (h : (Nat.log2 den : Int) ≤ Nat.log2 num + 1000) :
    gridExponent num den ≤ (Nat.log2 num : Int) - Nat.log2 den - 1 := by
  unfold gridExponent
  simp only
  split <;> omega

/-- The binary value nearest to a fraction that is not minute is positive. -/
theorem nearest_isPositive {num den : Nat} (hnum : num ≠ 0) (hden : 0 < den)
    (h : (Nat.log2 den : Int) ≤ Nat.log2 num + 1000) : (nearest false num den).isPositive = true := by
  have hm : 0 < scaledRound num den (gridExponent num den) :=
    Nat.lt_of_lt_of_le (scaledFloor_pos hnum hden (gridExponent_le h))
      (scaledRound_bounds ..).1
  have hfinal : ∀ {m : Nat} (e : Int), 0 < m →
      (if 971 < e then infinite false else finite false m e).isPositive = true := by
    intro m e hpos
    split
    · decide
    · exact isPositive_finite hpos e
  unfold nearest
  rw [if_neg hnum]
  simp only
  split
  · exact hfinal _ (twoTo_pos _)
  · exact hfinal _ hm

/-- A number that is so many binary digits smaller than another one is that much shorter. -/
theorem log2_le_add {a b k : Nat} (ha : a ≠ 0) (h : a ≤ b * twoTo k) :
    Nat.log2 a ≤ Nat.log2 b + k := by
  have hlt : a < 2 ^ (Nat.log2 b + 1 + k) := by
    rw [Nat.pow_add]
    exact Nat.lt_of_le_of_lt h (Nat.mul_lt_mul_of_pos_right Nat.lt_log2_self (twoTo_pos k))
  have := (Nat.log2_lt ha).mpr hlt
  omega

/-- What a step on a grid is worth. -/
theorem scaledFloor_mul_le (num : Nat) {den : Nat} (hden : 0 < den) (e : Int) :
    (scaledFloor num den e : ℚ) * 2 ^ e ≤ num / den := by
  have hden' : (0 : ℚ) < den := Nat.cast_pos.mpr hden
  unfold scaledFloor
  split
  next he =>
    obtain ⟨k, rfl⟩ := Int.eq_ofNat_of_zero_le he
    have hle := Nat.cast_div_le (α := ℚ) (m := num) (n := den * twoTo k)
    rw [Int.toNat_natCast, zpow_natCast, ← le_div_iff₀ (by positivity), div_div]
    rw [twoTo_eq] at hle ⊢
    push_cast at hle
    exact hle
  next he =>
    obtain ⟨k, rfl⟩ : ∃ k : Nat, e = -k := ⟨(-e).toNat, by omega⟩
    have hle := Nat.cast_div_le (α := ℚ) (m := num * twoTo k) (n := den)
    rw [neg_neg, Int.toNat_natCast, zpow_neg, zpow_natCast, ← div_eq_mul_inv,
      div_le_iff₀ (by positivity), div_mul_eq_mul_div]
    rw [twoTo_eq] at hle ⊢
    push_cast at hle
    exact hle

/-- The binary digits of a fraction tell its size. -/
theorem two_pow_log2_le {num den : Nat} (hnum : num ≠ 0) (hden : 0 < den) :
    (2 : ℚ) ^ ((Nat.log2 num : Int) - Nat.log2 den - 1) ≤ num / den := by
  have hlow : (2 : ℚ) ^ Nat.log2 num ≤ num := by exact_mod_cast Nat.log2_self_le hnum
  have hhigh : (den : ℚ) ≤ 2 ^ (Nat.log2 den + 1) := by
    exact_mod_cast (Nat.lt_log2_self (n := den)).le
  have hden' : (0 : ℚ) < den := Nat.cast_pos.mpr hden
  rw [sub_sub, zpow_sub₀ (by norm_num : (2 : ℚ) ≠ 0), zpow_natCast,
    show (Nat.log2 den : Int) + 1 = (Nat.log2 den + 1 : Nat) by push_cast; rfl, zpow_natCast]
  exact div_le_div₀ (Nat.cast_nonneg num) hlow hden' hhigh

/-- The grid of a fraction is no coarser than the fraction, or than one. -/
theorem two_pow_gridExponent_le {num den : Nat} (hnum : num ≠ 0) (hden : 0 < den) :
    (2 : ℚ) ^ gridExponent num den ≤ num / den + 1 := by
  have hsize := two_pow_log2_le hnum hden
  have hfrac : (0 : ℚ) ≤ num / den := by positivity
  rcases le_total (gridExponent num den) 0 with hle | hle
  · -- A step of the grid is at most one.
    have hone := (zpow_le_zpow_iff_right₀ (by norm_num : (1 : ℚ) < 2)).mpr hle
    rw [zpow_zero] at hone
    linarith
  · have hgrid : gridExponent num den ≤ (Nat.log2 num : Int) - Nat.log2 den - 1 := by
      unfold gridExponent at hle ⊢
      simp only at hle ⊢
      split at hle <;> omega
    have hpow := (zpow_le_zpow_iff_right₀ (by norm_num : (1 : ℚ) < 2)).mpr hgrid
    linarith

/-- A nearest value is at most twice its fraction, but for a step of the format. -/
theorem exists_nearest_eq {num den : Nat} (hden : 0 < den) (h : num ≤ den * twoTo 200) (s : Bool) :
    ∃ m e, nearest s num den = finite s m e ∧ (m : ℚ) * 2 ^ e ≤ 2 * (num / den) + 1 := by
  unfold nearest
  split
  next => exact ⟨0, _, rfl, by simp; positivity⟩
  next hnum =>
    have hlog : Nat.log2 num ≤ Nat.log2 den + 200 := log2_le_add hnum h
    have hgrid : gridExponent num den ≤ 200 := by
      unfold gridExponent
      simp only
      split <;> omega
    have hround : (scaledRound num den (gridExponent num den) : ℚ) ≤
        scaledFloor num den (gridExponent num den) + 1 := by
      exact_mod_cast (scaledRound_bounds num den (gridExponent num den)).2
    have hvalue : (scaledRound num den (gridExponent num den) : ℚ) * 2 ^ gridExponent num den ≤
        2 * (num / den) + 1 :=
      calc (scaledRound num den (gridExponent num den) : ℚ) * 2 ^ gridExponent num den
          ≤ (scaledFloor num den (gridExponent num den) + 1) * 2 ^ gridExponent num den :=
            mul_le_mul_of_nonneg_right hround (by positivity)
        _ = scaledFloor num den (gridExponent num den) * 2 ^ gridExponent num den +
            2 ^ gridExponent num den := by ring
        _ ≤ num / den + (num / den + 1) :=
            add_le_add (scaledFloor_mul_le num hden _) (two_pow_gridExponent_le hnum hden)
        _ = 2 * (num / den) + 1 := by ring
    dsimp only
    split
    next hcarry =>
      -- Rounding up to a power of two moves to the next grid, with the same value.
      refine ⟨_, _, if_neg (by omega), ?_⟩
      rw [hcarry, twoTo_succ 52] at hvalue
      rw [zpow_add_one₀ (by norm_num)]
      refine le_trans (le_of_eq ?_) hvalue
      push_cast
      ring
    next => exact ⟨_, _, if_neg (by omega), hvalue⟩

/-! ## Numbers with an exponent -/

open Decimal (digitCount scaled)

section Numbers

variable {c : Nat} {e : Int} {s : Bool}

/-- If a power of two is below one of ten, then so are the powers of both. -/
theorem lt_log2_of_pow_le {a b n : Nat} (hbase : twoTo a ≤ tenTo b) (hb : b ≠ 0)
    (h : 10 ^ n ≤ c) : a * n < b * (Nat.log2 c + 1) := by
  have hpow : 2 ^ (a * n) < 2 ^ (b * (Nat.log2 c + 1)) :=
    calc 2 ^ (a * n) = (2 ^ a) ^ n := Nat.pow_mul ..
      _ ≤ (10 ^ b) ^ n := Nat.pow_le_pow_left hbase n
      _ = (10 ^ n) ^ b := by rw [← Nat.pow_mul, ← Nat.pow_mul, Nat.mul_comm]
      _ ≤ c ^ b := Nat.pow_le_pow_left h _
      _ < (2 ^ (Nat.log2 c + 1)) ^ b := Nat.pow_lt_pow_left Nat.lt_log2_self hb
      _ = 2 ^ (b * (Nat.log2 c + 1)) := by rw [← Nat.pow_mul, Nat.mul_comm]
  exact (Nat.pow_lt_pow_iff_right (by decide)).mp hpow

/-- And the other way round. -/
theorem log2_lt_of_pow_le {a b n : Nat} (hbase : tenTo b ≤ twoTo a) (ha : a ≠ 0) (hc : c ≠ 0)
    (h : c < 10 ^ n) : b * Nat.log2 c < a * n := by
  have hpow : 10 ^ (b * Nat.log2 c) < 10 ^ (a * n) :=
    calc 10 ^ (b * Nat.log2 c) = (10 ^ b) ^ Nat.log2 c := Nat.pow_mul ..
      _ ≤ (2 ^ a) ^ Nat.log2 c := Nat.pow_le_pow_left hbase _
      _ = (2 ^ Nat.log2 c) ^ a := by rw [← Nat.pow_mul, ← Nat.pow_mul, Nat.mul_comm]
      _ ≤ c ^ a := Nat.pow_le_pow_left (Nat.log2_self_le hc) _
      _ < (10 ^ n) ^ a := Nat.pow_lt_pow_left h ha
      _ = 10 ^ (a * n) := by rw [← Nat.pow_mul, Nat.mul_comm]
  exact (Nat.pow_lt_pow_iff_right (by decide)).mp hpow

/-- The count by which minute numbers are told is no lower than the digits of a number, less two. -/
theorem digitCount_le_high (hc : c ≠ 0) :
    (digitCount c : Int) - 2 ≤ (Nat.log2 c : Int) * 30103 / 100000 := by
  have hlog := lt_log2_of_pow_le (a := 100000) (b := 30103) (by decide +kernel) (by decide)
    (Decimal.pow_digitCount_le hc)
  have hpos := Decimal.digitCount_pos c
  omega

/-- The count by which vast numbers are told is lower than the digits of a number. -/
theorem low_lt_digitCount (hc : c ≠ 0) :
    (Nat.log2 c : Int) * 30102 / 100000 < digitCount c := by
  have hlog := log2_lt_of_pow_le (a := 100000) (b := 30102) (by decide +kernel) (by decide) hc
    (Decimal.lt_pow_digitCount c)
  omega

/-- A number that is not vast is rounded as a fraction, unless it is so minute that its digits tell
it. -/
theorem ofScientific_cases (hc : c ≠ 0) (h : digitCount c + e ≤ 300) (s : Bool) :
    digitCount c + e ≤ -324 ∧ ofScientific s c e = finite s 0 (-1074) ∨
      ∃ num den : Nat, num ≠ 0 ∧ 0 < den ∧ (num : ℚ) / den = scaled c e ∧
        ofScientific s c e = nearest s num den := by
  have hlow := low_lt_digitCount hc
  have hhigh := digitCount_le_high hc
  unfold ofScientific
  simp only [if_neg hc]
  rw [if_neg (by omega)]
  split
  next => exact .inl ⟨by omega, rfl⟩
  next =>
    right
    split
    next he =>
      obtain ⟨k, rfl⟩ := Int.eq_ofNat_of_zero_le he
      refine ⟨_, 1, Nat.mul_ne_zero hc (tenTo_pos _).ne', Nat.one_pos, ?_, rfl⟩
      rw [Int.toNat_natCast, Nat.cast_one, div_one, Nat.cast_mul, tenTo_cast]
      rfl
    next he =>
      obtain ⟨k, rfl⟩ : ∃ k : Nat, e = -k := ⟨(-e).toNat, by omega⟩
      refine ⟨_, _, hc, tenTo_pos _, ?_, rfl⟩
      rw [neg_neg, Int.toNat_natCast, tenTo_cast, scaled, zpow_neg, div_eq_mul_inv]

/-- The value nearest to a number that is neither minute nor vast is positive. -/
theorem ofScientific_isPositive (hc : c ≠ 0) (hlow : -8 ≤ digitCount c + e)
    (hhigh : digitCount c + e ≤ 300) : (ofScientific false c e).isPositive = true := by
  rcases ofScientific_cases hc hhigh false with ⟨hminute, -⟩ | ⟨num, den, hnum, hden, hvalue, heq⟩
  · omega
  · rw [heq]
    have hden' : (0 : ℚ) < den := Nat.cast_pos.mpr hden
    have hle : (den : ℚ) ≤ num * (10 ^ 9 : Nat) := by
      have hpow : (10 : ℚ) ^ (-9 : Int) ≤ num / den := by
        rw [hvalue]
        exact le_trans (Decimal.ten_zpow_le_iff.mpr (by omega)) (Decimal.pow_le_scaled hc e)
      rw [le_div_iff₀ hden'] at hpow
      norm_num at hpow ⊢
      linarith
    have hle' : den ≤ num * twoTo 30 :=
      Nat.le_trans (by exact_mod_cast hle) (Nat.mul_le_mul_left num (by decide))
    have hlog := log2_le_add hden.ne' hle'
    exact nearest_isPositive hnum hden (by omega)

/-- The value nearest to a number that is not vast is finite, and at most twice the number, but for a
step. -/
theorem exists_ofScientific_eq (hc : c ≠ 0) (h : digitCount c + e ≤ 60) (s : Bool) :
    ∃ m x, ofScientific s c e = finite s m x ∧ (m : ℚ) * 2 ^ x ≤ 2 * scaled c e + 1 := by
  rcases ofScientific_cases (e := e) hc (by omega) s with
    ⟨-, heq⟩ | ⟨num, den, -, hden, hvalue, heq⟩
  · refine ⟨0, _, heq, ?_⟩
    have := Decimal.scaled_nonneg c e
    rw [Nat.cast_zero, zero_mul]
    linarith
  · have hlt := (Decimal.scaled_lt_pow_iff (k := 60) hc).mpr h
    rw [← hvalue, div_lt_iff₀ (Nat.cast_pos.mpr hden)] at hlt
    have hle : num ≤ den * tenTo 60 := by
      rw [Nat.mul_comm]
      exact_mod_cast hlt.le
    have hnear := exists_nearest_eq hden
      (Nat.le_trans hle (Nat.mul_le_mul_left den (show tenTo 60 ≤ twoTo 200 by decide +kernel))) s
    rw [← hvalue, heq]
    exact hnear

end Numbers

end Binary64

/-! ## Reading back -/

/-- A binary value is read back with seven places, and changed by half of a unit at most. -/
theorem Decimal.exists_ofBinary64_eq (s : Bool) (m : Nat) (e : Int) :
    ∃ n, ofBinary64 (.finite s m e) = .finite s n (-7) ∧ (n : ℚ) ≤ m * 2 ^ e * 10 ^ 7 + 1 := by
  unfold ofBinary64
  simp only
  split
  next he =>
    obtain ⟨k, rfl⟩ := Int.eq_ofNat_of_zero_le he
    refine ⟨_, rfl, ?_⟩
    rw [Int.toNat_natCast, twoTo_eq, zpow_natCast, Nat.cast_mul, Nat.cast_mul, tenTo_cast]
    push_cast
    norm_num
    linarith
  next he =>
    obtain ⟨k, rfl⟩ : ∃ k : Nat, e = -k := ⟨(-e).toNat, by omega⟩
    refine ⟨_, rfl, ?_⟩
    rw [neg_neg, Int.toNat_natCast]
    have hround := (rounding_bounds (m * tenTo 7 / twoTo k) (m * tenTo 7 % twoTo k) (twoTo k)).2
    refine le_trans (Nat.cast_le.mpr hround) ?_
    have hfloor : ((m * tenTo 7 / twoTo k : Nat) : ℚ) ≤ m * 2 ^ (-k : Int) * 10 ^ 7 := by
      refine le_trans Nat.cast_div_le (le_of_eq ?_)
      simp only [Nat.cast_mul, tenTo_cast, twoTo_eq, zpow_neg, zpow_natCast]
      push_cast
      ring
    push_cast at hfloor ⊢
    linarith

end Custody
