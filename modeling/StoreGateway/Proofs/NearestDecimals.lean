import StoreGateway.Proofs.NearestDoubles

/-!
# Decimals are rounded to the nearest double

A decimal is rounded to the nearest double, however small it is, and to infinity from half way
between the greatest double and the next power of two. That half way point goes up, since the
significand of the greatest double is odd.

* `tooGreat`: the least magnitude that is rounded to infinity;
* `Converts`: what a sign and a magnitude are rounded to;
* `rounded_lt_of_lt`, `le_rounded_of_le`: when the multiple of the unit reaches the power of two;
* `converts_ofRatio`, `Decimal.converts_round`: quotients and decimals.
-/

namespace StoreGateway.Number

open StoreGateway.Text

/-- Half way from the greatest double to the next power of two. -/
def tooGreat : ℚ :=
  2 ^ (1024 : ℤ) - 2 ^ (970 : ℤ)

/-- A number of this sign and magnitude is rounded to the nearest double, or to infinity. -/
inductive Converts (negative : Bool) (magnitude : ℚ) : Binary64 → Prop where
  | finite {x : Finite} (h : magnitude < tooGreat) (hsign : x.negative = negative)
      (hx : x.Rounds (if negative then -magnitude else magnitude)) :
      Converts negative magnitude (.finite x)
  | infinity (h : tooGreat ≤ magnitude) : Converts negative magnitude (.infinity negative)

namespace Converts

variable {s : Bool} {q : ℚ} {x : Binary64}

theorem ne_nan (h : Converts s q x) : x ≠ .nan := by
  cases h <;> nofun

theorem eq_infinity_iff (h : Converts s q x) {t : Bool} :
    x = .infinity t ↔ t = s ∧ tooGreat ≤ q := by
  cases h with
  | finite h => exact ⟨nofun, fun hgreat => absurd hgreat.2 (not_le.2 h)⟩
  | infinity h =>
    rw [Binary64.infinity.injEq, eq_comm]
    exact (and_iff_left h).symm

end Converts

namespace Binary64

/-! ## The half way point -/

/-- Between doubles that are `2 * half` apart, the upper one is the nearer from half way on. -/
theorem tie_of_near {half power q a : ℚ} (h : power - half ≤ q) (hlt : q < power)
    (ha : a ≤ power - 2 * half) (hnear : |a - q| ≤ |power - q|) :
    |power - q| = |a - q| ∧ power - 2 * half ≤ a := by
  have hbelow := neg_abs_le (a - q)
  have habove : |power - q| = power - q := abs_of_nonneg (sub_nonneg.2 hlt.le)
  rw [habove] at hnear ⊢
  constructor
  · linarith
  · linarith

theorem two_zpow_971 : (2 : ℚ) ^ (971 : ℤ) = 2 * 2 ^ (970 : ℤ) :=
  zpow_one_add₀ two_ne_zero 970

theorem two_zpow_1024 : (2 : ℚ) ^ (1024 : ℤ) = (2 ^ 53 : ℕ) * 2 ^ (971 : ℤ) := by
  rw [Nat.cast_pow, ← zpow_natCast, Nat.cast_ofNat, ← zpow_add₀ two_ne_zero]
  rfl

theorem two_zpow_1023_le : (2 : ℚ) ^ (1023 : ℤ) ≤ tooGreat := by
  have hdouble : (2 : ℚ) ^ (1024 : ℤ) = 2 * 2 ^ (1023 : ℤ) := zpow_one_add₀ two_ne_zero 1023
  have hle : (2 : ℚ) ^ (970 : ℤ) ≤ 2 ^ (1023 : ℤ) := zpow_le_zpow_right₀ one_le_two (by decide)
  unfold tooGreat
  rw [hdouble, two_mul, add_sub_assoc]
  exact le_add_of_nonneg_right (sub_nonneg.2 hle)

theorem tooGreat_pos : 0 < tooGreat :=
  lt_of_lt_of_le (by positivity) two_zpow_1023_le

/-- How far a multiple of the greatest unit is below the power of two. -/
theorem multiple_le {m k : ℕ} (h : m + k ≤ 2 ^ 53) :
    (m : ℚ) * 2 ^ (971 : ℤ) ≤ 2 ^ (1024 : ℤ) - k * 2 ^ (971 : ℤ) := by
  have h' : (m : ℚ) + k ≤ (2 ^ 53 : ℕ) := by exact_mod_cast h
  rw [two_zpow_1024, ← sub_mul]
  exact mul_le_mul_of_nonneg_right (le_sub_iff_add_le.2 h') (by positivity)

/-- The greatest double. -/
def greatest : Finite :=
  ⟨false, 2 ^ 53 - 1, 971, by decide⟩

theorem value_greatest : greatest.value = 2 ^ (1024 : ℤ) - 2 * 2 ^ (970 : ℤ) := by
  show ((2 ^ 53 - 1 : ℕ) : ℚ) * 2 ^ (971 : ℤ) = _
  rw [← two_zpow_971, two_zpow_1024, Nat.cast_sub Nat.one_le_two_pow, Nat.cast_one, sub_mul, one_mul]

section

variable {n d : ℕ} (hd : d ≠ 0) (hn : n ≠ 0)
include hd hn

/-- Below the half way point, the power of two is farther away than the greatest double. -/
theorem rounded_lt_of_lt (h : (n : ℚ) / d < tooGreat) : rounded n d * unit n d < 2 ^ (1024 : ℤ) := by
  have hpos : (0 : ℚ) < 2 ^ (970 : ℤ) := by positivity
  have hnear := rounded_nearest hd hn greatest
  have hself := le_abs_self (rounded n d * unit n d - (n : ℚ) / d)
  rw [value_greatest] at hnear
  unfold tooGreat at h
  generalize (2 : ℚ) ^ (970 : ℤ) = half at *
  generalize (2 : ℚ) ^ (1024 : ℤ) = power at *
  by_contra hge
  rcases le_total (power - 2 * half) ((n : ℚ) / d) with hle | hle
  · rw [abs_of_nonpos (sub_nonpos.2 hle)] at hnear
    linarith
  · rw [abs_of_nonneg (sub_nonneg.2 hle)] at hnear
    linarith

/-- From the half way point on, the power of two is nearer, or as near and even. -/
theorem le_rounded_of_le (h : tooGreat ≤ (n : ℚ) / d) : 2 ^ (1024 : ℤ) ≤ rounded n d * unit n d := by
  obtain ⟨-, hlt, -⟩ := roundingExponent_bounds hn hd
  obtain ⟨-, hnormal⟩ := rounded_bounds hd hn
  obtain ⟨hnear, htie⟩ := rounded_spec hd (2 ^ 53 : ℕ) (n := n)
  have hexp := lt_of_zpow_lt ((two_zpow_1023_le.trans h).trans_lt hlt)
  unfold unit at *
  generalize roundingExponent n d = e at *
  generalize rounded n d = m at *
  by_contra hless
  rw [not_le] at hless
  -- The unit is the greatest one, and the multiple is a double.
  obtain rfl : e = 971 := by
    have := lt_of_two_pow_le (hnormal.resolve_right (by omega)) hless
    omega
  have hm : m < 2 ^ 53 := by
    by_contra hgreat
    have := lt_of_two_pow_le (not_lt.1 hgreat) hless
    omega
  have hone : (m : ℚ) * 2 ^ (971 : ℤ) ≤ 2 ^ (1024 : ℤ) - 2 * 2 ^ (970 : ℤ) := by
    refine (multiple_le (k := 1) hm).trans_eq ?_
    rw [Nat.cast_one, one_mul, two_zpow_971]
  rw [Int.cast_natCast, ← two_zpow_1024] at hnear htie
  obtain ⟨hsame, hge⟩ := tie_of_near h hlt hone hnear
  -- The greatest double is odd, so it does not win the tie.
  have heven := htie (by exact_mod_cast hm.ne') hsame
  have htwo := multiple_le (k := 2) (m := m) (by omega)
  refine absurd (hge.trans htwo) (not_le.2 (sub_lt_sub_left ?_ _))
  rw [← two_zpow_971, Nat.cast_ofNat]
  exact lt_mul_of_one_lt_left (by positivity) one_lt_two

end

/-! ## Quotients and decimals -/

/-- A multiple of the unit that reaches the power of two is beyond all doubles. -/
theorem pack_of_le (s : Bool) {m : ℕ} {e : ℤ} (hmost : m ≤ 2 ^ 53)
    (hge : 2 ^ (1024 : ℤ) ≤ (m : ℚ) * 2 ^ e) : pack s m e = .infinity s := by
  unfold pack
  by_cases hm : m = Nat.pow 2 53
  · rw [if_pos hm]
    have := lt_of_lt_two_pow (show m < 2 ^ 54 from hm ▸ by decide) hge
    exact dif_neg fun hcanonical => absurd hcanonical.2.2.1 (by omega)
  · rw [if_neg hm]
    have := lt_of_lt_two_pow (lt_of_le_of_ne hmost hm) hge
    exact dif_neg fun hcanonical => absurd hcanonical.2.2.1 (by omega)

theorem converts_ofRatio (s : Bool) (n : ℕ) {d : ℕ} (hd : d ≠ 0) :
    Converts s ((n : ℚ) / d) (ofRatio s n d) := by
  by_cases hsmall : (n : ℚ) / d < tooGreat
  · by_cases hn : n = 0
    · subst hn
      refine .finite hsmall rfl ?_
      simpa using rounds_zero s
    · obtain ⟨x, hx, hsign, hrounds⟩ := rounds_of_lt hd hn s (rounded_lt_of_lt hd hn hsmall)
      rw [hx]
      exact .finite hsmall hsign hrounds
  · have hgreat := not_lt.1 hsmall
    have hn : n ≠ 0 := by
      rintro rfl
      rw [Nat.cast_zero, zero_div] at hsmall
      exact hsmall tooGreat_pos
    rw [ofRatio_eq hn, pack_of_le s (rounded_bounds hd hn).1 (le_rounded_of_le hd hn hgreat)]
    exact .infinity hgreat

end Binary64

namespace Decimal

theorem magnitude_nonneg (d : Decimal) : 0 ≤ d.magnitude := by
  unfold magnitude
  positivity

theorem two_pow_le_ten_pow_325 : (2 : ℚ) ^ 1075 ≤ 10 ^ 325 := by
  have h : 2 ^ 1075 ≤ 10 ^ 325 := by decide +kernel
  exact_mod_cast h

/-- A decimal that is rounded to zero for its exponent alone is that small. -/
theorem magnitude_le_of_top {d : Decimal} (h : (digits d.coefficient).length + d.exponent < -324) :
    d.magnitude ≤ 2 ^ (-1075 : ℤ) :=
  calc d.magnitude ≤ 10 ^ ((digits d.coefficient).length + d.exponent) := d.magnitude_lt.le
    _ ≤ 10 ^ (-325 : ℤ) := zpow_le_zpow_right₀ (by norm_num) (by omega)
    _ ≤ 2 ^ (-1075 : ℤ) := by
      rw [zpow_neg, zpow_neg]
      exact inv_anti₀ (by positivity) two_pow_le_ten_pow_325

/-- A decimal that is infinite for its exponent alone is that great. -/
theorem tooGreat_le_of_top {d : Decimal} (hd : d.coefficient ≠ 0)
    (h : 309 < (digits d.coefficient).length + d.exponent) : tooGreat ≤ d.magnitude :=
  calc tooGreat ≤ 2 ^ (1024 : ℤ) := sub_le_self _ (by positivity)
    _ ≤ 10 ^ (309 : ℤ) := two_pow_lt_ten_pow.le
    _ ≤ 10 ^ ((digits d.coefficient).length + d.exponent - 1) :=
      zpow_le_zpow_right₀ (by norm_num) (by omega)
    _ ≤ d.magnitude := le_magnitude hd

/-- A decimal is rounded to the nearest double, or to infinity. -/
theorem converts_round (d : Decimal) : Converts d.negative d.magnitude d.round := by
  unfold round
  dsimp only
  split
  · next hsmall =>
    have hle : d.magnitude ≤ 2 ^ (-1075 : ℤ) := by
      rcases hsmall with hzero | htop
      · rw [magnitude, hzero, Nat.cast_zero, zero_mul]
        positivity
      · exact magnitude_le_of_top htop
    refine .finite ?_ rfl (Binary64.rounds_zero_of_small d.negative ?_)
    · calc d.magnitude ≤ 2 ^ (-1075 : ℤ) := hle
        _ < 2 ^ (1023 : ℤ) := zpow_lt_zpow_right₀ one_lt_two (by decide)
        _ ≤ tooGreat := Binary64.two_zpow_1023_le
    · split
      · rwa [abs_neg, abs_of_nonneg d.magnitude_nonneg]
      · rwa [abs_of_nonneg d.magnitude_nonneg]
  · next hsmall =>
    obtain ⟨hne, -⟩ := not_or.1 hsmall
    split
    · next hgreat => exact .infinity (tooGreat_le_of_top hne hgreat)
    · have hconverts := Binary64.converts_ofRatio d.negative (d.coefficient * 10 ^ d.exponent.toNat)
        (pow_ne_zero (-d.exponent).toNat (by decide : 10 ≠ 0))
      rw [d.ratio_eq] at hconverts
      exact hconverts

end Decimal

end StoreGateway.Number
