import Mathlib.Algebra.Order.Field.Power
import Mathlib.Algebra.Order.Field.Rat
import Mathlib.Data.Rat.Cast.Order
import Mathlib.Tactic.NormNum
import Mathlib.Tactic.Positivity
import Mathlib.Tactic.Ring
import StoreGateway.Number.Spelling
import StoreGateway.Proofs.Numerals

/-!
# Rounding leaves doubles alone

A quotient or a decimal that is the magnitude of a double is rounded to that double. All that has to
be seen is that the exponent found from the lengths of numerator and denominator is the double's own:
both are the one that leaves fifty-three bits before the point.

* `Finite.magnitude`: the absolute value of a double;
* `roundingExponent_bounds`: how large a quotient is at its rounding exponent;
* `roundingExponent_eq`: the exponent at which a double is rounded is its own;
* `ofRatio_of_magnitude`, `Decimal.round_of_magnitude`: quotients and decimals that are doubles.
-/

namespace StoreGateway.Number

open StoreGateway.Text

/-! ## Powers with negative exponents -/

/-- A power as a quotient of natural powers, one of which is one. -/
theorem zpow_eq_div {b : ℕ} (hb : b ≠ 0) (e : ℤ) :
    (b : ℚ) ^ e = (b : ℚ) ^ e.toNat / (b : ℚ) ^ (-e).toNat := by
  have hb' : (b : ℚ) ≠ 0 := Nat.cast_ne_zero.2 hb
  rw [← zpow_natCast, ← zpow_natCast, ← zpow_sub₀ hb']
  congr 1
  omega

theorem div_lt_zpow_iff {n d : ℕ} (hd : d ≠ 0) (k : ℕ) (e : ℤ) :
    n * 2 ^ (-e).toNat < 2 ^ k * (d * 2 ^ e.toNat) ↔ (n : ℚ) / d < 2 ^ (e + k) := by
  have hd' : (0 : ℚ) < d := Nat.cast_pos.2 (Nat.pos_of_ne_zero hd)
  have hpow := zpow_eq_div (b := 2) two_ne_zero e
  push_cast at hpow
  rw [zpow_add₀ two_ne_zero, hpow, zpow_natCast, div_lt_iff₀ hd', div_mul_eq_mul_div,
    div_mul_eq_mul_div, lt_div_iff₀ (by positivity), ← Nat.cast_lt (α := ℚ)]
  push_cast
  rw [mul_comm (2 ^ e.toNat * 2 ^ k : ℚ), mul_left_comm, mul_comm (2 ^ e.toNat : ℚ)]

/-- The lengths of numerator and denominator bound a quotient up to a factor of four. -/
theorem log2_sub_log2 {n d : ℕ} (hn : n ≠ 0) (hd : d ≠ 0) :
    (2 : ℚ) ^ ((n.log2 : ℤ) - d.log2 - 1) < n / d ∧ (n : ℚ) / d < 2 ^ ((n.log2 : ℤ) - d.log2 + 1) := by
  have hd' : (0 : ℚ) < d := Nat.cast_pos.2 (Nat.pos_of_ne_zero hd)
  have hn₁ : (2 : ℚ) ^ n.log2 ≤ n := by exact_mod_cast Nat.log2_self_le hn
  have hn₂ : (n : ℚ) < 2 ^ (n.log2 + 1) := by exact_mod_cast Nat.lt_log2_self
  have hd₁ : (2 : ℚ) ^ d.log2 ≤ d := by exact_mod_cast Nat.log2_self_le hd
  have hd₂ : (d : ℚ) < 2 ^ (d.log2 + 1) := by exact_mod_cast Nat.lt_log2_self
  constructor
  · calc (2 : ℚ) ^ ((n.log2 : ℤ) - d.log2 - 1) = 2 ^ n.log2 / 2 ^ (d.log2 + 1) := by
          rw [← zpow_natCast, ← zpow_natCast, ← zpow_sub₀ two_ne_zero]
          congr 1
          push_cast
          ring
      _ < 2 ^ n.log2 / d := div_lt_div_of_pos_left (by positivity) hd' hd₂
      _ ≤ n / d := div_le_div_of_nonneg_right hn₁ hd'.le
  · calc (n : ℚ) / d ≤ n / 2 ^ d.log2 := div_le_div_of_nonneg_left (by positivity) (by positivity) hd₁
      _ < 2 ^ (n.log2 + 1) / 2 ^ d.log2 := div_lt_div_of_pos_right hn₂ (by positivity)
      _ = 2 ^ ((n.log2 : ℤ) - d.log2 + 1) := by
          rw [← zpow_natCast, ← zpow_natCast, ← zpow_sub₀ two_ne_zero]
          congr 1
          push_cast
          ring

theorem lt_of_zpow_lt {a b : ℤ} (h : (2 : ℚ) ^ a < 2 ^ b) : a < b :=
  (zpow_lt_zpow_iff_right₀ one_lt_two).1 h

/-! ## Quotients -/

/-- The absolute value. -/
def Finite.magnitude (x : Finite) : ℚ :=
  x.significand * 2 ^ x.exponent

theorem Finite.magnitude_pos {x : Finite} (hx : x.significand ≠ 0) : 0 < x.magnitude := by
  have : (0 : ℚ) < x.significand := Nat.cast_pos.2 (Nat.pos_of_ne_zero hx)
  unfold Finite.magnitude
  positivity

theorem Finite.magnitude_lt (x : Finite) : x.magnitude < 2 ^ (x.exponent + 53) := by
  have hlt : (x.significand : ℚ) < 2 ^ (53 : ℤ) := by exact_mod_cast x.canonical.1
  rw [add_comm, zpow_add₀ two_ne_zero]
  exact mul_lt_mul_of_pos_right hlt (by positivity)

/-- The significand has all its bits, or the exponent is the least one. -/
theorem Finite.magnitude_cases (x : Finite) :
    2 ^ (x.exponent + 52) ≤ x.magnitude ∨
      x.exponent = -1074 ∧ x.magnitude < 2 ^ (x.exponent + 52) := by
  unfold Finite.magnitude
  rw [add_comm, zpow_add₀ two_ne_zero]
  by_cases hm : Nat.pow 2 52 ≤ x.significand
  · have hle : (2 : ℚ) ^ (52 : ℤ) ≤ x.significand := by exact_mod_cast hm
    exact .inl (mul_le_mul_of_nonneg_right hle (by positivity))
  · have hlt : (x.significand : ℚ) < 2 ^ (52 : ℤ) := by exact_mod_cast not_le.1 hm
    exact .inr ⟨x.canonical.2.2.2.resolve_left hm, mul_lt_mul_of_pos_right hlt (by positivity)⟩

namespace Binary64

/-- At the rounding exponent a quotient has fifty-three bits before the point, or fewer at the least. -/
theorem roundingExponent_bounds {n d : ℕ} (hn : n ≠ 0) (hd : d ≠ 0) :
    -1074 ≤ roundingExponent n d ∧ (n : ℚ) / d < 2 ^ (roundingExponent n d + 53) ∧
      (roundingExponent n d = -1074 ∨ 2 ^ (roundingExponent n d + 52) ≤ (n : ℚ) / d) := by
  obtain ⟨hlow, hhigh⟩ := log2_sub_log2 hn hd
  unfold roundingExponent
  dsimp only
  generalize he : (n.log2 : ℤ) - d.log2 - 53 = e
  rw [show (n.log2 : ℤ) - d.log2 - 1 = e + 52 by omega] at hlow
  rw [show (n.log2 : ℤ) - d.log2 + 1 = e + 1 + 53 by omega] at hhigh
  have hcond := div_lt_zpow_iff hd 53 e (n := n)
  -- The exponent found from the lengths is right, or too low by one.
  have hfits : ∀ e' : ℤ, (2 : ℚ) ^ (e' + 52) ≤ n / d → (n : ℚ) / d < 2 ^ (e' + 53) →
      -1074 ≤ max e' (-1074) ∧ (n : ℚ) / d < 2 ^ (max e' (-1074) + 53) ∧
        (max e' (-1074) = -1074 ∨ 2 ^ (max e' (-1074) + 52) ≤ (n : ℚ) / d) := by
    intro e' hge hlt
    refine ⟨le_max_right _ _, hlt.trans_le (zpow_le_zpow_right₀ one_le_two (by omega)), ?_⟩
    rcases le_total e' (-1074) with hle | hle
    · exact .inl (max_eq_right hle)
    · rw [max_eq_left hle]
      exact .inr hge
  split
  · next hsmall => exact hfits e hlow.le (hcond.1 hsmall)
  · next hbig =>
    refine hfits (e + 1) ?_ hhigh
    rw [show e + 1 + 52 = e + 53 by omega]
    exact not_lt.1 fun hlt => hbig (hcond.2 hlt)

/-- The exponent at which a double is rounded is its own. -/
theorem roundingExponent_eq {x : Finite} {n d : ℕ} (hn : n ≠ 0) (hd : d ≠ 0)
    (h : (n : ℚ) / d = x.magnitude) : roundingExponent n d = x.exponent := by
  obtain ⟨hleast, hlt, hge⟩ := roundingExponent_bounds hn hd
  have hleast' := x.canonical.2.1
  have hlt' := x.magnitude_lt
  rw [h] at hlt hge
  have hle : roundingExponent n d ≤ x.exponent := by
    rcases hge with heq | hge
    · omega
    · have := lt_of_zpow_lt (hge.trans_lt hlt')
      omega
  have hle' : x.exponent ≤ roundingExponent n d := by
    rcases x.magnitude_cases with hge' | ⟨heq, -⟩
    · have := lt_of_zpow_lt (hge'.trans_lt hlt)
      omega
    · omega
  omega

theorem nearest_mul (q : ℕ) {d : ℕ} (hd : d ≠ 0) : nearest (q * d) d = q := by
  have hd' := Nat.pos_of_ne_zero hd
  unfold nearest
  rw [Nat.mul_div_cancel _ hd', Nat.mul_mod_left]
  exact if_pos (by omega)

theorem pack_canonical (x : Finite) : pack x.negative x.significand x.exponent = .finite x := by
  unfold pack
  rw [if_neg (Nat.ne_of_lt x.canonical.1)]
  exact dif_pos x.canonical

/-- A quotient that is the magnitude of a double is rounded to it. -/
theorem ofRatio_of_magnitude {x : Finite} (hx : x.significand ≠ 0) {n d : ℕ} (hd : d ≠ 0)
    (h : (n : ℚ) / d = x.magnitude) : ofRatio x.negative n d = .finite x := by
  have hn : n ≠ 0 := by
    rintro rfl
    have := x.magnitude_pos hx
    rw [← h] at this
    simp at this
  have hd' : (d : ℚ) ≠ 0 := Nat.cast_ne_zero.2 hd
  have hscaled : n * 2 ^ (-x.exponent).toNat = x.significand * (d * 2 ^ x.exponent.toNat) := by
    have hpow := zpow_eq_div (b := 2) two_ne_zero x.exponent
    unfold Finite.magnitude at h
    push_cast at hpow
    rw [hpow, div_eq_iff hd', mul_div_assoc', div_mul_eq_mul_div, eq_div_iff (by positivity)] at h
    have h' : (n : ℚ) * 2 ^ (-x.exponent).toNat = x.significand * (d * 2 ^ x.exponent.toNat) := by
      rw [h]
      ring
    exact_mod_cast h'
  unfold ofRatio
  rw [if_neg hn]
  dsimp only
  rw [roundingExponent_eq hn hd h]
  show pack x.negative (nearest (n * 2 ^ (-x.exponent).toNat) (d * 2 ^ x.exponent.toNat)) x.exponent = _
  rw [hscaled, nearest_mul _ (by positivity), pack_canonical]

end Binary64

/-! ## Decimals -/

/-- The absolute value of what a decimal denotes. -/
def Decimal.magnitude (d : Decimal) : ℚ :=
  d.coefficient * 10 ^ d.exponent

theorem Decimal.magnitude_lt (d : Decimal) :
    d.magnitude < 10 ^ ((digits d.coefficient).length + d.exponent) := by
  have hlt : (d.coefficient : ℚ) < 10 ^ (digits d.coefficient).length := by
    exact_mod_cast lt_pow_length d.coefficient
  rw [zpow_add₀ (by norm_num), zpow_natCast]
  exact mul_lt_mul_of_pos_right hlt (by positivity)

theorem Decimal.le_magnitude {d : Decimal} (hd : d.coefficient ≠ 0) :
    10 ^ ((digits d.coefficient).length + d.exponent - 1) ≤ d.magnitude := by
  have hlen := List.length_pos_iff.2 (digits_ne_nil d.coefficient)
  have hle : (10 : ℚ) ^ ((digits d.coefficient).length - 1) ≤ d.coefficient := by
    exact_mod_cast pow_length_le hd
  have hexp : ((digits d.coefficient).length + d.exponent - 1 : ℤ) =
      ((digits d.coefficient).length - 1 : ℕ) + d.exponent := by omega
  rw [hexp, zpow_add₀ (by norm_num), zpow_natCast]
  exact mul_le_mul_of_nonneg_right hle (by positivity)

/-- The magnitude is the quotient that is rounded. -/
theorem Decimal.ratio_eq (d : Decimal) :
    ((d.coefficient * 10 ^ d.exponent.toNat : ℕ) : ℚ) / (10 ^ (-d.exponent).toNat : ℕ) =
      d.magnitude := by
  have hpow := zpow_eq_div (b := 10) (by norm_num) d.exponent
  push_cast at hpow ⊢
  rw [Decimal.magnitude, hpow, mul_div_assoc]

theorem two_pow_le_ten_pow : (2 : ℚ) ^ 1074 ≤ 10 ^ 324 := by
  have h : 2 ^ 1074 ≤ 10 ^ 324 := by decide +kernel
  exact_mod_cast h

theorem two_pow_lt_ten_pow : (2 : ℚ) ^ 1024 < 10 ^ 309 := by
  have h : 2 ^ 1024 < 10 ^ 309 := by decide +kernel
  exact_mod_cast h

theorem Finite.two_zpow_le_magnitude {x : Finite} (hx : x.significand ≠ 0) :
    (2 : ℚ) ^ (-1074 : ℤ) ≤ x.magnitude := by
  have hone : (1 : ℚ) ≤ x.significand := by exact_mod_cast Nat.one_le_iff_ne_zero.2 hx
  calc (2 : ℚ) ^ (-1074 : ℤ) ≤ 2 ^ x.exponent := zpow_le_zpow_right₀ one_le_two x.canonical.2.1
    _ ≤ x.magnitude := le_mul_of_one_le_left (by positivity) hone

theorem Finite.magnitude_bounds {x : Finite} (hx : x.significand ≠ 0) :
    (10 : ℚ) ^ (-324 : ℤ) ≤ x.magnitude ∧ x.magnitude < 10 ^ (309 : ℤ) := by
  constructor
  · calc (10 : ℚ) ^ (-324 : ℤ) ≤ 2 ^ (-1074 : ℤ) := by
          rw [zpow_neg, zpow_neg]
          exact inv_anti₀ (by positivity) two_pow_le_ten_pow
      _ ≤ x.magnitude := Finite.two_zpow_le_magnitude hx
  · calc x.magnitude < 2 ^ (x.exponent + 53) := x.magnitude_lt
      _ ≤ 2 ^ (1024 : ℤ) := zpow_le_zpow_right₀ one_le_two (by have := x.canonical.2.2.1; omega)
      _ < 10 ^ (309 : ℤ) := two_pow_lt_ten_pow

/-- A decimal that is the magnitude of a double is rounded to it. -/
theorem Decimal.round_of_magnitude {x : Finite} (hx : x.significand ≠ 0) {d : Decimal}
    (hsign : d.negative = x.negative) (h : d.magnitude = x.magnitude) : d.round = .finite x := by
  obtain ⟨hlow, hhigh⟩ := x.magnitude_bounds hx
  have hd : d.coefficient ≠ 0 := by
    intro hzero
    have := x.magnitude_pos hx
    rw [← h, Decimal.magnitude, hzero] at this
    simp at this
  have hten : ∀ {a b : ℤ}, (10 : ℚ) ^ a < 10 ^ b → a < b := fun h =>
    (zpow_lt_zpow_iff_right₀ (by norm_num)).1 h
  have htop₁ := hten ((hlow.trans_eq h.symm).trans_lt d.magnitude_lt)
  have htop₂ := hten (((Decimal.le_magnitude hd).trans_eq h).trans_lt hhigh)
  unfold Decimal.round
  dsimp only
  rw [if_neg (by omega), if_neg (by omega), hsign]
  exact Binary64.ofRatio_of_magnitude hx (pow_ne_zero _ (by decide)) (d.ratio_eq.trans h)

end StoreGateway.Number
