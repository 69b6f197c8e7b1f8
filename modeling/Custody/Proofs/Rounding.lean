import Mathlib.Algebra.Order.Field.Power
import Mathlib.Algebra.Order.Ring.Rat
import Mathlib.Tactic.Linarith
import Mathlib.Tactic.Positivity
import Mathlib.Tactic.Ring
import Custody.Number.Decimal

/-!
# What arithmetic keeps of a decimal

A decimal is a coefficient and an exponent, and the same number has many of them. Arithmetic keeps some
digits of a number, and none below a least place, so that a long number is rounded and a minute one is
nothing; how many and which is a matter of its context. What is kept depends on the number alone and not
on how it is written; written with the fewest digits, it ends in a digit that is not zero. A context may
also refuse what it cannot keep as it is.

> `rounded_roundsTo`: the digits that are kept are those of the nearest number.
> `RoundsTo.unique`: there is one such number.
> `normalized?_gives`: the shortest form is a form of it.
> `normalized?_ne_none`: there is one, unless the number is vast or would be rounded against the rules.
-/

namespace Custody

namespace Decimal

/-- The number `c·10^e`. -/
def scaled (c : Nat) (e : Int) : ℚ := c * 10 ^ e

/-- The number that a finite decimal is. The others are put at zero. -/
def value : Decimal → ℚ
  | .finite s c e => if s then -scaled c e else scaled c e
  | _ => 0

namespace Context

variable (ctx : Context)

/-- The place of the last digit that is kept of a number: the least place of all, or the one that
leaves `precision` digits. -/
structure LastPlace (v : ℚ) (g : Int) : Prop where
  least : ctx.leastPlace ≤ g
  below : v < 10 ^ (g + ctx.precision)
  filled : g = ctx.leastPlace ∨ (10 : ℚ) ^ (g + ctx.precision - 1) ≤ v

/-- A number is rounded to the nearest one that ends in its last place, and to the even one of two. -/
def RoundsTo (v w : ℚ) : Prop :=
  ∃ (g : Int) (n : Nat), ctx.LastPlace v g ∧ w = scaled n g ∧ |v - w| ≤ 10 ^ g / 2 ∧
    (|v - w| = 10 ^ g / 2 → Even n)

/-- Arithmetic gives a number for another one: the one that it is rounded to, and only itself where
nothing else is let through. -/
def Gives (v w : ℚ) : Prop := ctx.RoundsTo v w ∧ (ctx.refusesInexact = true → w = v)

/-- Arithmetic gives nothing else for a number: it has room for the number, or refuses to round. -/
def Keeps (v : ℚ) : Prop := ctx.refusesInexact = true ∨ ctx.RoundsTo v v

end Context

/-! ## Digits -/

section Digits

variable {c : Nat} {e k : Int}

theorem ten_zpow_pos (e : Int) : (0 : ℚ) < 10 ^ e := zpow_pos (by norm_num) e

theorem ten_zpow_le_iff : (10 : ℚ) ^ e ≤ 10 ^ k ↔ e ≤ k := zpow_le_zpow_iff_right₀ (by norm_num)

theorem ten_zpow_lt_iff : (10 : ℚ) ^ e < 10 ^ k ↔ e < k := zpow_lt_zpow_iff_right₀ (by norm_num)

theorem digitCount_le_iff {n : Nat} (hn : 0 < n) : digitCount c ≤ n ↔ c < 10 ^ n :=
  Nat.length_toDigits_le_iff (by decide) hn

theorem digitCount_pos (c : Nat) : 0 < digitCount c := Nat.length_toDigits_pos

theorem lt_pow_digitCount (c : Nat) : c < 10 ^ digitCount c :=
  (digitCount_le_iff (digitCount_pos c)).mp (Nat.le_refl _)

theorem pow_le_of_lt_digitCount {n : Nat} (hn : 0 < n) (h : n < digitCount c) : 10 ^ n ≤ c :=
  Nat.le_of_not_lt fun hlt => Nat.not_le.mpr h ((digitCount_le_iff hn).mpr hlt)

theorem pow_digitCount_le (hc : c ≠ 0) : 10 ^ (digitCount c - 1) ≤ c := by
  have hpos := digitCount_pos c
  by_cases h1 : digitCount c = 1
  · rw [h1]
    exact Nat.pos_of_ne_zero hc
  · exact pow_le_of_lt_digitCount (by omega) (by omega)

theorem scaled_zero (e : Int) : scaled 0 e = 0 := by rw [scaled, Nat.cast_zero, zero_mul]

theorem scaled_nonneg (c : Nat) (e : Int) : 0 ≤ scaled c e :=
  mul_nonneg (Nat.cast_nonneg c) (ten_zpow_pos e).le

theorem scaled_pos_iff : 0 < scaled c e ↔ c ≠ 0 := by
  unfold scaled
  rw [mul_pos_iff_of_pos_right (ten_zpow_pos e), Nat.cast_pos, Nat.pos_iff_ne_zero]

theorem scaled_injective {a b : Nat} (h : scaled a e = scaled b e) : a = b := by
  have hcancel := mul_right_cancel₀ (ten_zpow_pos e).ne' h
  exact_mod_cast hcancel

theorem scaled_le_scaled {a b : Nat} (h : a ≤ b) (e : Int) : scaled a e ≤ scaled b e :=
  mul_le_mul_of_nonneg_right (Nat.cast_le.mpr h) (ten_zpow_pos e).le

/-- A number written with more zeros. -/
theorem scaled_mul_pow (c n : Nat) (e : Int) : scaled (c * 10 ^ n) e = scaled c (e + n) := by
  unfold scaled
  rw [zpow_add₀ (by norm_num : (10 : ℚ) ≠ 0), zpow_natCast]
  push_cast
  ring

theorem scaled_lt_pow (c : Nat) (e : Int) : scaled c e < 10 ^ (digitCount c + e) := by
  have h : (c : ℚ) < 10 ^ digitCount c := by exact_mod_cast lt_pow_digitCount c
  unfold scaled
  rw [zpow_add₀ (by norm_num : (10 : ℚ) ≠ 0), zpow_natCast]
  exact mul_lt_mul_of_pos_right h (ten_zpow_pos e)

theorem pow_le_scaled (hc : c ≠ 0) (e : Int) : (10 : ℚ) ^ (digitCount c + e - 1) ≤ scaled c e := by
  have h : ((10 ^ (digitCount c - 1) : Nat) : ℚ) ≤ c := by exact_mod_cast pow_digitCount_le hc
  have hpos := digitCount_pos c
  have hexp : (digitCount c + e - 1 : Int) = (digitCount c - 1 : Nat) + e := by omega
  unfold scaled
  rw [hexp, zpow_add₀ (by norm_num : (10 : ℚ) ≠ 0), zpow_natCast]
  push_cast at h
  exact mul_le_mul_of_nonneg_right h (ten_zpow_pos e).le

/-- The size of a number is told by its digits and its exponent. -/
theorem scaled_lt_pow_iff (hc : c ≠ 0) : scaled c e < 10 ^ k ↔ digitCount c + e ≤ k := by
  constructor
  · intro h
    have hlt := ten_zpow_lt_iff.mp (lt_of_le_of_lt (pow_le_scaled hc e) h)
    omega
  · intro h
    exact lt_of_lt_of_le (scaled_lt_pow c e) (ten_zpow_le_iff.mpr h)

end Digits

/-! ## Rounding -/

/-- A quotient with a remainder, rounded: it is off by half a unit at most, and even where it is. -/
theorem halfEven_spec {q r d : Nat} (hr : r < d) :
    let n := if 2 * r < d then q else if d < 2 * r then q + 1 else if q % 2 = 0 then q else q + 1
    2 * (n * d) ≤ 2 * (q * d + r) + d ∧ 2 * (q * d + r) ≤ 2 * (n * d) + d ∧
      (2 * (n * d) = 2 * (q * d + r) + d ∨ 2 * (q * d + r) = 2 * (n * d) + d → Even n) := by
  intro n
  have hsucc : (q + 1) * d = q * d + d := Nat.succ_mul q d
  rcases Nat.lt_trichotomy (2 * r) d with hlt | heq | hgt
  · have hn : n = q := if_pos hlt
    rw [hn]
    exact ⟨by omega, by omega, by omega⟩
  · by_cases heven : q % 2 = 0
    · have hn : n = q := by simp only [n, if_neg heq.not_lt, if_neg heq.not_gt, if_pos heven]
      rw [hn]
      exact ⟨by omega, by omega, fun _ => Nat.even_iff.mpr heven⟩
    · have hn : n = q + 1 := by
        simp only [n, if_neg heq.not_lt, if_neg heq.not_gt, if_neg heven]
      rw [hn, hsucc]
      exact ⟨by omega, by omega, fun _ => Nat.even_iff.mpr (by omega)⟩
  · have hn : n = q + 1 := by simp only [n, if_neg hgt.asymm, if_pos hgt]
    rw [hn, hsucc]
    exact ⟨by omega, by omega, by omega⟩

/-- What is left of a coefficient without its last digits. -/
theorem roundHalfEven_spec (c k : Nat) :
    2 * (roundHalfEven c k * 10 ^ k) ≤ 2 * c + 10 ^ k ∧
      2 * c ≤ 2 * (roundHalfEven c k * 10 ^ k) + 10 ^ k ∧
      (2 * (roundHalfEven c k * 10 ^ k) = 2 * c + 10 ^ k ∨
        2 * c = 2 * (roundHalfEven c k * 10 ^ k) + 10 ^ k → Even (roundHalfEven c k)) := by
  unfold roundHalfEven
  split
  next hfew =>
    have hlt := lt_pow_digitCount c
    have hle : 10 * 10 ^ digitCount c ≤ 10 ^ k := by
      rw [← Nat.pow_succ']
      exact Nat.pow_le_pow_right (by decide) hfew
    exact ⟨by omega, by omega, fun _ => Even.zero⟩
  next =>
    have hmod : c % 10 ^ k < 10 ^ k := Nat.mod_lt c (Nat.pow_pos (by decide))
    have hspec := halfEven_spec (q := c / 10 ^ k) hmod
    rw [Nat.div_add_mod'] at hspec
    exact hspec

/-- Where enough digits go, what is left is no larger than the next power of ten. -/
theorem roundHalfEven_le {c k n : Nat} (h : digitCount c ≤ k + n) : roundHalfEven c k ≤ 10 ^ n := by
  obtain ⟨hlow, -, -⟩ := roundHalfEven_spec c k
  have hlt : c < 10 ^ n * 10 ^ k := by
    rw [← Nat.pow_add, Nat.add_comm]
    exact Nat.lt_of_lt_of_le (lt_pow_digitCount c) (Nat.pow_le_pow_right (by decide) h)
  by_contra hgt
  have hmul : (10 ^ n + 1) * 10 ^ k ≤ roundHalfEven c k * 10 ^ k :=
    Nat.mul_le_mul_right _ (Nat.lt_of_not_le hgt)
  rw [Nat.succ_mul] at hmul
  have hpos : 0 < 10 ^ k := Nat.pow_pos (by decide)
  omega

/-- The number is off by half a unit of its new last place at most. -/
theorem abs_scaled_sub_le (c k : Nat) (e : Int) :
    |scaled c e - scaled (roundHalfEven c k) (e + k)| ≤ 10 ^ (e + k) / 2 ∧
      (|scaled c e - scaled (roundHalfEven c k) (e + k)| = 10 ^ (e + k) / 2 →
        Even (roundHalfEven c k)) := by
  obtain ⟨hlow, hhigh, hhalf⟩ := roundHalfEven_spec c k
  generalize roundHalfEven c k = n at *
  have hunit : (10 : ℚ) ^ (e + k) = (10 ^ k : Nat) * 10 ^ e := by
    rw [zpow_add₀ (by norm_num : (10 : ℚ) ≠ 0), zpow_natCast, mul_comm]
    push_cast
    rfl
  have hdiff : scaled c e - scaled n (e + k) = ((c : ℚ) - (n * 10 ^ k : Nat)) * 10 ^ e := by
    unfold scaled
    rw [hunit]
    push_cast
    ring
  have hpos := ten_zpow_pos e
  rw [hdiff, hunit, abs_mul, abs_of_pos hpos, mul_div_right_comm]
  generalize n * 10 ^ k = m at *
  have hlow' : 2 * (m : ℚ) ≤ 2 * c + (10 ^ k : Nat) := by exact_mod_cast hlow
  have hhigh' : 2 * (c : ℚ) ≤ 2 * m + (10 ^ k : Nat) := by exact_mod_cast hhigh
  refine ⟨mul_le_mul_of_nonneg_right (abs_le.mpr ⟨by linarith, by linarith⟩) hpos.le, fun h => ?_⟩
  have habs := mul_right_cancel₀ hpos.ne' h
  refine hhalf ((abs_eq (by positivity)).mp habs |>.symm.imp (fun h => ?_) fun h => ?_)
  · have : 2 * (m : ℚ) = 2 * c + (10 ^ k : Nat) := by linarith
    exact_mod_cast this
  · have : 2 * (c : ℚ) = 2 * m + (10 ^ k : Nat) := by linarith
    exact_mod_cast this

section Numbers

variable {ctx : Context} {v w w' : ℚ} {c n r : Nat} {e f g k : Int}

/-- The last place is the one where the digits that are not kept begin. -/
theorem max_place_eq (h : excess ctx c e ≠ 0) :
    max (digitCount c + e - ctx.precision) ctx.leastPlace = e + excess ctx c e := by
  unfold excess at *
  omega

theorem Context.lastPlace_scaled (ctx : Context) (hc : c ≠ 0) (e : Int) :
    ctx.LastPlace (scaled c e) (max (digitCount c + e - ctx.precision) ctx.leastPlace) := by
  refine ⟨le_max_right _ _, (scaled_lt_pow_iff hc).mpr (by omega), ?_⟩
  rcases le_total (digitCount c + e - ctx.precision) ctx.leastPlace with hle | hle
  · exact .inl (max_eq_right hle)
  · right
    rw [max_eq_left hle, sub_add_cancel]
    exact pow_le_scaled hc e

/-- A number that ends in its last place is kept as it is. -/
theorem Context.LastPlace.roundsTo_self (h : ctx.LastPlace (scaled n g) g) :
    ctx.RoundsTo (scaled n g) (scaled n g) := by
  refine ⟨g, n, h, rfl, ?_, fun hhalf => ?_⟩
  · rw [sub_self, abs_zero]
    exact (half_pos (ten_zpow_pos g)).le
  · rw [sub_self, abs_zero] at hhalf
    exact absurd hhalf (half_pos (ten_zpow_pos g)).ne

/-- So is one all of whose digits are kept: there is room for zeros behind them. -/
theorem roundsTo_self_of_excess (hc : c ≠ 0) (h : excess ctx c e = 0) :
    ctx.RoundsTo (scaled c e) (scaled c e) := by
  have hplace := ctx.lastPlace_scaled hc e
  unfold excess at h
  generalize hg : max (digitCount c + e - ctx.precision) ctx.leastPlace = g at hplace
  have hzeros := scaled_mul_pow c (e - g).toNat g
  rw [show g + ((e - g).toNat : Int) = e by omega] at hzeros
  rw [← hzeros] at hplace ⊢
  exact hplace.roundsTo_self

/-- The digits that are kept are those of the nearest number. -/
theorem rounded_roundsTo (hc : c ≠ 0) (h : rounded ctx c e = (r, f)) :
    ctx.RoundsTo (scaled c e) (scaled r f) := by
  have hplace := ctx.lastPlace_scaled hc e
  have hpos := ctx.precision_pos
  unfold rounded at h
  dsimp only at h
  split at h
  next h0 =>
    cases h
    exact roundsTo_self_of_excess hc h0
  next hextra =>
    rw [max_place_eq hextra] at hplace
    have hfew : digitCount c ≤ excess ctx c e + ctx.precision := by
      unfold excess
      omega
    generalize excess ctx c e = extra at *
    obtain ⟨hnear, heven⟩ := abs_scaled_sub_le c extra e
    have hround : ctx.RoundsTo (scaled c e) (scaled (roundHalfEven c extra) (e + extra)) :=
      ⟨_, _, hplace, rfl, hnear, heven⟩
    split at h
    next =>
      cases h
      exact hround
    next hlong =>
      cases h
      have hten : roundHalfEven c extra = 10 ^ (ctx.precision - 1) * 10 ^ 1 := by
        rw [← Nat.pow_add, Nat.sub_add_cancel hpos]
        exact Nat.le_antisymm (roundHalfEven_le hfew)
          (pow_le_of_lt_digitCount hpos (Nat.lt_of_not_le hlong))
      rw [hten, scaled_mul_pow] at hround
      rw [hten, pow_one, Nat.mul_div_cancel _ (by decide)]
      exact hround

/-- A number has one last place. -/
theorem Context.LastPlace.unique (h : ctx.LastPlace v g) (h' : ctx.LastPlace v k) : g = k := by
  -- A place above the least one is where the number's first digit puts it.
  have hlt : ∀ {a b : Int}, ctx.LastPlace v a → ctx.LastPlace v b → ¬a < b := by
    intro a b ha hb hab
    have := ha.least
    rcases hb.filled with hleast | hfilled
    · omega
    · have hpow := ten_zpow_lt_iff.mp (lt_of_le_of_lt hfilled ha.below)
      omega
  exact le_antisymm (Int.not_lt.mp (hlt h' h)) (Int.not_lt.mp (hlt h h'))

/-- A number of units that is above another one by half a unit at most is not above it. -/
theorem le_of_scaled_le {m n : Nat} (h : scaled m g ≤ scaled n g + 10 ^ g / 2) : m ≤ n := by
  have hpos := ten_zpow_pos g
  by_contra hlt
  have hstep := scaled_le_scaled (Nat.lt_of_not_le hlt) g
  unfold scaled at *
  push_cast at hstep
  linarith

/-- Of two different numbers that end in the last place, not both are nearest. -/
theorem not_lt_of_nearest {m n : Nat} (hm : |v - scaled m g| ≤ 10 ^ g / 2)
    (hmeven : |v - scaled m g| = 10 ^ g / 2 → Even m) (hn : |v - scaled n g| ≤ 10 ^ g / 2)
    (hneven : |v - scaled n g| = 10 ^ g / 2 → Even n) : ¬m < n := by
  intro hlt
  obtain ⟨-, hup⟩ := abs_le.mp hm
  obtain ⟨hdown, -⟩ := abs_le.mp hn
  have hpos := ten_zpow_pos g
  have hsucc : scaled (m + 1) g = scaled m g + 10 ^ g := by
    unfold scaled
    push_cast
    ring
  -- They are a unit apart at most, so the number is just half way between them.
  obtain rfl : n = m + 1 := Nat.le_antisymm (le_of_scaled_le (g := g) (by linarith)) hlt
  rw [hsucc] at hdown hneven
  have hmid : v = scaled m g + 10 ^ g / 2 := by linarith
  have heven := hmeven (by rw [hmid, add_sub_cancel_left, abs_of_pos (half_pos hpos)])
  have hodd := hneven (by
    rw [hmid, add_sub_add_left_eq_sub, abs_sub_comm, sub_half, abs_of_pos (half_pos hpos)])
  exact Nat.even_add_one.mp hodd heven

/-- A number is rounded to one number. -/
theorem Context.RoundsTo.unique (h : ctx.RoundsTo v w) (h' : ctx.RoundsTo v w') : w = w' := by
  obtain ⟨g, m, hg, rfl, hm, hmeven⟩ := h
  obtain ⟨k, n, hk, rfl, hn, hneven⟩ := h'
  obtain rfl := hg.unique hk
  rw [Nat.le_antisymm (Nat.not_lt.mp (not_lt_of_nearest hn hneven hm hmeven))
    (Nat.not_lt.mp (not_lt_of_nearest hm hmeven hn hneven))]

/-- What is kept is what is given. -/
theorem Context.Keeps.eq_of_gives (h : ctx.Keeps v) (hw : ctx.Gives v w) : w = v :=
  h.elim hw.2 fun hself => hw.1.unique hself

/-- A power of ten that is no smaller than a place, in units of that place. -/
theorem pow_eq_scaled (h : g ≤ k) : (10 : ℚ) ^ k = scaled (10 ^ (k - g).toNat) g := by
  have hone := scaled_mul_pow 1 (k - g).toNat g
  rw [one_mul, show g + ((k - g).toNat : Int) = k by omega] at hone
  rw [hone, scaled, Nat.cast_one, one_mul]

/-- A number with a last place above a power of ten is no smaller than a unit of that place. -/
theorem Context.LastPlace.pow_le (h : ctx.LastPlace v g) (hk : ctx.leastPlace ≤ k) (hlt : k < g) :
    10 ^ g ≤ v := by
  have hpos := ctx.precision_pos
  rcases h.filled with hleast | hfilled
  · omega
  · exact le_trans (ten_zpow_le_iff.mpr (by omega)) hfilled

/-- A power of ten that ends in the last place as well is no nearer. -/
theorem pow_le_scaled_of_near (hnear : |v - scaled n g| ≤ 10 ^ g / 2) (hle : g ≤ k) (hv : 10 ^ k ≤ v) :
    10 ^ k ≤ scaled n g := by
  obtain ⟨-, hup⟩ := abs_le.mp hnear
  rw [pow_eq_scaled hle] at hv ⊢
  exact scaled_le_scaled (le_of_scaled_le (g := g) (by linarith)) g

/-- Rounding does not go below a power of ten. -/
theorem Context.RoundsTo.pow_le (h : ctx.RoundsTo v w) (hk : ctx.leastPlace ≤ k) (hv : 10 ^ k ≤ v) :
    10 ^ k ≤ w := by
  obtain ⟨g, n, hg, rfl, hnear, -⟩ := h
  rcases le_or_gt g k with hle | hlt
  · exact pow_le_scaled_of_near hnear hle hv
  · have hunit := pow_le_scaled_of_near hnear le_rfl (hg.pow_le hk hlt)
    exact le_trans (ten_zpow_le_iff.mpr hlt.le) hunit

/-- Rounding does not go beyond a power of ten. -/
theorem Context.RoundsTo.le_pow (h : ctx.RoundsTo v w) (hk : ctx.leastPlace ≤ k) (hv : v ≤ 10 ^ k) :
    w ≤ 10 ^ k := by
  obtain ⟨g, n, hg, rfl, hnear, -⟩ := h
  obtain ⟨hdown, -⟩ := abs_le.mp hnear
  rcases le_or_gt g k with hle | hlt
  · rw [pow_eq_scaled hle] at hv ⊢
    exact scaled_le_scaled (le_of_scaled_le (g := g) (by linarith)) g
  · have hsmall := ten_zpow_lt_iff.mpr hlt
    exact absurd (le_trans (hg.pow_le hk hlt) hv) (not_le.mpr hsmall)

/-- The digits that are not kept are zeros just if the number is kept as it is. -/
theorem isExact_iff (hc : c ≠ 0) :
    isExact ctx c e = true ↔ ctx.RoundsTo (scaled c e) (scaled c e) := by
  by_cases h0 : excess ctx c e = 0
  · refine iff_of_true ?_ (roundsTo_self_of_excess hc h0)
    rw [isExact, h0]
    simp [tenTo, Nat.mod_one]
  have hplace := ctx.lastPlace_scaled hc e
  rw [max_place_eq h0] at hplace
  have hunits : isExact ctx c e = true ↔ ∃ n, c = n * 10 ^ excess ctx c e := by
    unfold isExact
    dsimp only
    split
    next hfew =>
      refine iff_of_false (by simpa using hc) fun ⟨n, hn⟩ => ?_
      have hn0 : n ≠ 0 := fun hn0 => hc (by rw [hn, hn0, Nat.zero_mul])
      have hlt := lt_pow_digitCount c
      have hle : 10 ^ digitCount c ≤ 10 ^ excess ctx c e := Nat.pow_le_pow_right (by decide) hfew.le
      have hmul := Nat.le_mul_of_pos_left (10 ^ excess ctx c e) (Nat.pos_of_ne_zero hn0)
      omega
    next =>
      rw [decide_eq_true_iff]
      exact ⟨fun h => ⟨_, (Nat.div_mul_cancel (Nat.dvd_of_mod_eq_zero h)).symm⟩,
        fun ⟨n, hn⟩ => Nat.mod_eq_zero_of_dvd ⟨n, hn.trans (Nat.mul_comm ..)⟩⟩
  rw [hunits]
  generalize excess ctx c e = extra at *
  constructor
  · rintro ⟨n, rfl⟩
    rw [scaled_mul_pow] at hplace ⊢
    exact hplace.roundsTo_self
  · rintro ⟨g, n, hg, hn, -⟩
    obtain rfl := hplace.unique hg
    exact ⟨n, scaled_injective (hn.trans (scaled_mul_pow n extra e).symm)⟩

end Numbers

/-! ## The shortest form -/

section Shortest

variable {ctx : Context} {c c' fuel n : Nat} {e e' k : Int}

theorem dropZeros_spec (h : dropZeros fuel c e = (c', e')) (hc : c ≠ 0) (hfuel : c < 10 ^ fuel) :
    scaled c' e' = scaled c e ∧ c' % 10 ≠ 0 := by
  induction fuel generalizing c e with
  | zero => exact absurd (Nat.lt_one_iff.mp hfuel) hc
  | succ fuel ih =>
    rw [dropZeros] at h
    split at h
    next h0 =>
      have hten : c = c / 10 * 10 ^ 1 := by omega
      obtain ⟨hvalue, hlast⟩ := ih h (by omega) (by rw [Nat.pow_succ] at hfuel; omega)
      refine ⟨?_, hlast⟩
      rw [hvalue, hten, scaled_mul_pow, ← hten]
      rfl
    next hlast =>
      cases h
      exact ⟨rfl, hlast⟩

/-- The shortest form of what arithmetic gives for a number: it ends in a digit that is not zero, or it
is the form of zero. -/
theorem normalized?_gives (hc : c ≠ 0) (h : normalized? ctx c e = some (c', e')) :
    ctx.Gives (scaled c e) (scaled c' e') ∧ (c' % 10 ≠ 0 ∨ c' = 0 ∧ e' = 0) := by
  unfold normalized? at h
  split at h
  next => cases h
  next hrefused =>
    generalize hr : rounded ctx c e = p at h
    obtain ⟨r, f⟩ := p
    have hround := rounded_roundsTo hc hr
    have hgives : ctx.Gives (scaled c e) (scaled r f) := by
      refine ⟨hround, fun href => ?_⟩
      rw [href, Bool.true_and, Bool.not_eq_true, Bool.not_eq_false'] at hrefused
      exact hround.unique ((isExact_iff hc).mp hrefused)
    dsimp only at h
    split at h
    next h0 =>
      cases h
      refine ⟨?_, .inr ⟨rfl, rfl⟩⟩
      rw [h0, scaled_zero] at hgives
      rwa [scaled_zero]
    next hr0 =>
      split at h
      next => cases h
      next =>
        obtain ⟨hvalue, hlast⟩ := dropZeros_spec (Option.some.inj h) hr0 (lt_pow_digitCount r)
        exact ⟨hvalue ▸ hgives, .inl hlast⟩

/-- There is one for every number that is not vast, if it need not be rounded where that is refused. -/
theorem normalized?_ne_none (hc : c ≠ 0) (h : scaled c e ≤ 10 ^ ctx.mostExponent)
    (hkept : ctx.refusesInexact = true → ctx.RoundsTo (scaled c e) (scaled c e)) :
    normalized? ctx c e ≠ none := by
  have hleast : ctx.leastPlace ≤ ctx.mostExponent := by
    have hpos := ctx.precision_pos
    have hlow := ctx.leastExponent_nonpos
    have hhigh := ctx.mostExponent_nonneg
    unfold Context.leastPlace
    omega
  unfold normalized?
  split
  next hrefused =>
    rw [Bool.and_eq_true, Bool.not_eq_true'] at hrefused
    rw [(isExact_iff hc).mpr (hkept hrefused.1)] at hrefused
    exact absurd hrefused.2 (by decide)
  next =>
    generalize hr : rounded ctx c e = p
    obtain ⟨r, f⟩ := p
    have hbelow := (rounded_roundsTo hc hr).le_pow hleast h
    dsimp only
    split
    next => exact nofun
    next hr0 =>
      split
      next hvast =>
        have hpow := ten_zpow_le_iff.mp (le_trans (pow_le_scaled hr0 f) hbelow)
        omega
      next => exact nofun

/-- A number whose last digit is not zero is a whole number of units of a place just if its exponent is
no smaller than the place. -/
theorem exists_scaled_iff (hlast : c % 10 ≠ 0) : (∃ m, scaled c e = scaled m k) ↔ k ≤ e := by
  constructor
  · rintro ⟨m, h⟩
    by_contra hlt
    have hshift := scaled_mul_pow m ((k - e).toNat - 1 + 1) e
    rw [show e + (((k - e).toNat - 1 + 1 : Nat) : Int) = k by omega, ← h, Nat.pow_succ,
      ← Nat.mul_assoc] at hshift
    rw [← scaled_injective hshift, Nat.mul_mod_left] at hlast
    exact hlast rfl
  · intro hle
    refine ⟨c * 10 ^ (e - k).toNat, ?_⟩
    rw [scaled_mul_pow, show k + ((e - k).toNat : Int) = e by omega]

end Shortest

end Decimal

end Custody
