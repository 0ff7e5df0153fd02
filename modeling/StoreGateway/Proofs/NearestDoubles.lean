import Mathlib.Algebra.Order.AbsoluteValue.Basic
import Mathlib.Tactic.FieldSimp
import Mathlib.Tactic.Linarith
import StoreGateway.Proofs.Rounding

/-!
# Rounding gives the nearest double

A quotient is rounded to a multiple of a power of two, the unit. Doubles that are no multiples of
the unit are smaller than the quotient, and smaller than a multiple that is at most the quotient, so
they are farther away than that multiple. What is nearest among the multiples is so nearest among all
doubles.

* `Finite.value`, `Finite.Rounds`: what a double stands for, and that it is what a number rounds to;
* `nearest_spec`: the nearest natural number to a quotient, and the even one of two;
* `exists_multiple`: no double is nearer than the multiples of the unit;
* `rounds_ofRatio`: a quotient that is no greater than some double rounds to a double;
* `rounds_divNat`: so does a double divided by a count.
-/

namespace StoreGateway.Number

/-! ## Values -/

namespace Finite

/-- The number that a double stands for. -/
def value (x : Finite) : ℚ :=
  if x.negative then -x.magnitude else x.magnitude

/-- The same magnitude with the other sign. -/
def neg (x : Finite) : Finite :=
  { x with negative := !x.negative }

/-- No double is nearer to `q` than `x`, and if another one is as near then `x` is the even one. -/
structure Rounds (x : Finite) (q : ℚ) : Prop where
  nearest : ∀ y : Finite, |x.value - q| ≤ |y.value - q|
  even : ∀ y : Finite, y.value ≠ x.value → |y.value - q| = |x.value - q| → x.significand % 2 = 0

theorem value_of_negative {x : Finite} (h : x.negative = true) : x.value = -x.magnitude :=
  if_pos h

theorem value_of_positive {x : Finite} (h : x.negative = false) : x.value = x.magnitude :=
  if_neg (by simp [h])

theorem value_neg (x : Finite) : x.neg.value = -x.value := by
  cases h : x.negative with
  | true =>
    rw [value_of_negative h, neg_neg, value_of_positive (by simp [neg, h])]
    rfl
  | false =>
    rw [value_of_positive h, value_of_negative (by simp [neg, h])]
    rfl

theorem neg_neg_eq (x : Finite) : x.neg.neg = x := by
  cases x
  simp [neg]

theorem Rounds.neg {x : Finite} {q : ℚ} (h : x.Rounds q) : x.neg.Rounds (-q) := by
  have hdist : ∀ y : Finite, |y.value - -q| = |y.neg.value - q| := by
    intro y
    rw [value_neg, ← abs_neg]
    congr 1
    ring
  constructor
  · intro y
    rw [hdist, hdist, neg_neg_eq]
    exact h.nearest y.neg
  · intro y hne htie
    rw [hdist, hdist, neg_neg_eq] at htie
    refine h.even y.neg (fun heq => hne ?_) htie
    rw [value_neg, ← heq, value_neg, neg_neg]

/-- The magnitude is the quotient of its numerator and denominator. -/
theorem ratio_eq (x : Finite) : (x.ratio.1 : ℚ) / x.ratio.2 = x.magnitude := by
  have hpow := zpow_eq_div (b := 2) two_ne_zero x.exponent
  push_cast at hpow
  unfold magnitude
  rw [hpow, ← mul_div_assoc]
  show ((x.significand * 2 ^ x.exponent.toNat : ℕ) : ℚ) / (2 ^ (-x.exponent).toNat : ℕ) = _
  push_cast
  rfl

theorem ratio_ne_zero (x : Finite) : x.ratio.2 ≠ 0 :=
  pow_ne_zero _ two_ne_zero

theorem magnitude_nonneg (x : Finite) : 0 ≤ x.magnitude := by
  unfold magnitude
  positivity

theorem abs_value (x : Finite) : |x.value| = x.magnitude := by
  unfold value
  split
  · rw [abs_neg, abs_of_nonneg x.magnitude_nonneg]
  · exact abs_of_nonneg x.magnitude_nonneg

end Finite

namespace Binary64

/-! ## The nearest natural number -/

theorem nearest_cases (n d : ℕ) :
    (nearest n d = n / d ∧ (2 * (n % d) < d ∨ 2 * (n % d) = d ∧ n / d % 2 = 0)) ∨
      (nearest n d = n / d + 1 ∧ (d < 2 * (n % d) ∨ 2 * (n % d) = d ∧ n / d % 2 = 1)) := by
  unfold nearest
  dsimp only
  split
  · omega
  · split
    · omega
    · omega

theorem le_nearest (n d : ℕ) : n / d ≤ nearest n d := by
  have := nearest_cases n d
  omega

theorem nearest_le (n d : ℕ) : nearest n d ≤ n / d + 1 := by
  have := nearest_cases n d
  omega

section

variable {n d : ℕ} (hd : 0 < d)
include hd

/-- Multiples of the denominator are as far away as it is long, but for the two around. -/
theorem far_multiple (k : ℤ) :
    k = (n / d : ℕ) ∨ k = (n / d : ℕ) + 1 ∨ (d : ℤ) ≤ |k * d - n| := by
  have hn : (d : ℤ) * (n / d : ℕ) + (n % d : ℕ) = n := by exact_mod_cast Nat.div_add_mod n d
  have hr : ((n % d : ℕ) : ℤ) < d := by exact_mod_cast Nat.mod_lt n hd
  have hr₀ : (0 : ℤ) ≤ (n % d : ℕ) := Int.natCast_nonneg _
  have hd₀ : (0 : ℤ) ≤ d := Int.natCast_nonneg _
  generalize ((n / d : ℕ) : ℤ) = q at hn ⊢
  generalize ((n % d : ℕ) : ℤ) = r at hn hr hr₀
  have hcases : k = q ∨ k = q + 1 ∨ k ≤ q - 1 ∨ q + 2 ≤ k := by omega
  rcases hcases with h | h | h | h
  · exact .inl h
  · exact .inr (.inl h)
  · have hle := mul_le_mul_of_nonneg_right h hd₀
    exact .inr (.inr (le_abs.2 (.inr (by linarith))))
  · have hle := mul_le_mul_of_nonneg_right h hd₀
    exact .inr (.inr (le_abs.2 (.inl (by linarith))))

/-- No multiple of the denominator is nearer, and if another one is as near then this is even. -/
theorem nearest_spec (k : ℤ) :
    |(nearest n d : ℤ) * d - n| ≤ |k * d - n| ∧
      (k ≠ nearest n d → |k * d - n| = |(nearest n d : ℤ) * d - n| → nearest n d % 2 = 0) := by
  have hn : (d : ℤ) * (n / d : ℕ) + (n % d : ℕ) = n := by exact_mod_cast Nat.div_add_mod n d
  have hr : ((n % d : ℕ) : ℤ) < d := by exact_mod_cast Nat.mod_lt n hd
  have hlow : |((n / d : ℕ) : ℤ) * d - n| = (n % d : ℕ) := by
    rw [abs_of_nonpos (by linarith)]
    linarith
  have hhigh : |((n / d : ℕ) + 1 : ℤ) * d - n| = d - (n % d : ℕ) := by
    rw [abs_of_nonneg (by linarith)]
    linarith
  have hk := far_multiple hd (n := n) k
  rcases nearest_cases n d with ⟨h, hside⟩ | ⟨h, hside⟩
  · rw [h, hlow]
    rcases hk with rfl | rfl | hk
    · omega
    · omega
    · omega
  · rw [h, Nat.cast_add, Nat.cast_one, hhigh]
    rcases hk with rfl | rfl | hk
    · omega
    · omega
    · omega

end

/-! ## Multiples of the unit -/

/-- The distance between neighbouring doubles around a quotient. -/
def unit (n d : ℕ) : ℚ :=
  2 ^ roundingExponent n d

/-- The multiple of the unit to which a quotient is rounded. -/
def rounded (n d : ℕ) : ℕ :=
  nearest (n * Nat.pow 2 (-roundingExponent n d).toNat) (d * Nat.pow 2 (roundingExponent n d).toNat)

theorem ofRatio_eq {s : Bool} {n d : ℕ} (hn : n ≠ 0) :
    ofRatio s n d = pack s (rounded n d) (roundingExponent n d) :=
  if_neg hn

section

variable {n d : ℕ} (hd : d ≠ 0)
include hd

/-- Distances from a quotient are distances from its numerator on another scale. -/
theorem exists_scale (e : ℤ) : ∃ c : ℚ, 0 < c ∧ ∀ k : ℤ, |k * 2 ^ e - (n : ℚ) / d| =
    c * (|k * (d * 2 ^ e.toNat : ℕ) - (n * 2 ^ (-e).toNat : ℕ)| : ℤ) := by
  have hd' : (0 : ℚ) < d := Nat.cast_pos.2 (Nat.pos_of_ne_zero hd)
  have hpow := zpow_eq_div (b := 2) two_ne_zero e
  push_cast at hpow
  refine ⟨1 / (d * 2 ^ (-e).toNat), by positivity, fun k => ?_⟩
  have hdist : k * 2 ^ e - (n : ℚ) / d = 1 / (d * 2 ^ (-e).toNat) *
      (k * (d * 2 ^ e.toNat : ℕ) - (n * 2 ^ (-e).toNat : ℕ) : ℤ) := by
    rw [hpow]
    push_cast
    field_simp
  rw [hdist, abs_mul, abs_of_pos (by positivity), Int.cast_abs]

/-- No multiple of the unit is nearer, and if another one is as near then this is even. -/
theorem rounded_spec (k : ℤ) :
    |rounded n d * unit n d - (n : ℚ) / d| ≤
        |k * unit n d - (n : ℚ) / d| ∧
      (k ≠ rounded n d → |k * unit n d - (n : ℚ) / d| =
        |rounded n d * unit n d - (n : ℚ) / d| → rounded n d % 2 = 0) := by
  obtain ⟨c, hc, hscale⟩ := exists_scale hd (roundingExponent n d) (n := n)
  obtain ⟨hle, htie⟩ := nearest_spec (n := n * 2 ^ (-roundingExponent n d).toNat)
    (d := d * 2 ^ (roundingExponent n d).toNat) (by positivity) k
  have hcast : (rounded n d : ℚ) = (rounded n d : ℤ) := (Int.cast_natCast _).symm
  unfold unit
  rw [hcast, hscale, hscale]
  constructor
  · exact mul_le_mul_of_nonneg_left (Int.cast_le.2 hle) hc.le
  · intro hne heq
    exact htie hne (Int.cast_injective (mul_left_cancel₀ hc.ne' heq))

/-- A double is a multiple of the unit, or farther away than some multiple. -/
theorem exists_multiple (hn : n ≠ 0) (y : Finite) : ∃ k : ℤ,
    k * unit n d = y.value ∨
      |k * unit n d - (n : ℚ) / d| < |y.value - (n : ℚ) / d| := by
  obtain ⟨-, -, hge⟩ := roundingExponent_bounds hn hd
  unfold unit
  generalize roundingExponent n d = e at hge ⊢
  by_cases hexp : e ≤ y.exponent
  · have hmul : y.magnitude = (y.significand * 2 ^ (y.exponent - e).toNat : ℤ) * 2 ^ e := by
      unfold Finite.magnitude
      push_cast
      rw [mul_assoc, ← zpow_natCast, ← zpow_add₀ two_ne_zero]
      congr 2
      omega
    cases hneg : y.negative with
    | true =>
      refine ⟨-(y.significand * 2 ^ (y.exponent - e).toNat : ℤ), .inl ?_⟩
      rw [Finite.value_of_negative hneg, hmul, Int.cast_neg, neg_mul]
    | false =>
      refine ⟨(y.significand * 2 ^ (y.exponent - e).toNat : ℤ), .inl ?_⟩
      rw [Finite.value_of_positive hneg, hmul]
  · -- The double is less than the multiple that has a one and then zeros, which is not too great.
    have hleast := y.canonical.2.1
    have hge : (2 : ℚ) ^ (e + 52) ≤ n / d := hge.resolve_left (by omega)
    have hlt : y.value < 2 ^ (e + 52) := by
      calc y.value ≤ y.magnitude := by
            unfold Finite.value
            have := y.magnitude_nonneg
            split
            · linarith
            · exact le_refl _
        _ < 2 ^ (y.exponent + 53) := y.magnitude_lt
        _ ≤ 2 ^ (e + 52) := zpow_le_zpow_right₀ one_le_two (by omega)
    refine ⟨2 ^ 52, .inr ?_⟩
    have hunit : ((2 ^ 52 : ℤ) : ℚ) * 2 ^ e = 2 ^ (e + 52) := by
      rw [add_comm, zpow_add₀ two_ne_zero]
      norm_num
    rw [hunit, abs_of_nonpos (by linarith), abs_of_nonpos (by linarith)]
    linarith

/-- The multiple of the unit is at least as near as every double. -/
theorem rounded_nearest (hn : n ≠ 0) (y : Finite) :
    |rounded n d * unit n d - (n : ℚ) / d| ≤ |y.value - (n : ℚ) / d| := by
  obtain ⟨k, hk | hk⟩ := exists_multiple hd hn y
  · rw [← hk]
    exact (rounded_spec hd k).1
  · exact ((rounded_spec hd k).1.trans_lt hk).le

/-- If another double is as near, the multiple is even. -/
theorem rounded_even (hn : n ≠ 0) (y : Finite)
    (hne : y.value ≠ rounded n d * unit n d)
    (htie : |y.value - (n : ℚ) / d| =
      |rounded n d * unit n d - (n : ℚ) / d|) : rounded n d % 2 = 0 := by
  obtain ⟨k, hk | hk⟩ := exists_multiple hd hn y
  · rw [← hk] at hne htie
    refine (rounded_spec hd k).2 (fun heq => hne ?_) htie
    rw [heq, Int.cast_natCast]
  · have hle := (rounded_spec hd k (n := n)).1
    rw [← htie] at hle
    exact absurd hle (not_le.2 hk)

/-- On any scale, the whole part of a quotient is below a power of two exactly if the quotient is. -/
theorem scaled_div_lt_iff (k : ℕ) (e : ℤ) :
    n * 2 ^ (-e).toNat / (d * 2 ^ e.toNat) < 2 ^ k ↔ (n : ℚ) / d < 2 ^ (e + k) := by
  have hpos : 0 < d * 2 ^ e.toNat := by positivity
  rw [Nat.div_lt_iff_lt_mul hpos]
  exact div_lt_zpow_iff hd k e

/-- The multiple has at most fifty-three bits, and not fewer but at the least exponent. -/
theorem rounded_bounds (hn : n ≠ 0) : rounded n d ≤ 2 ^ 53 ∧
    (2 ^ 52 ≤ rounded n d ∨ roundingExponent n d = -1074) := by
  obtain ⟨-, hlt, hge⟩ := roundingExponent_bounds hn hd
  have hdiv := (scaled_div_lt_iff hd 53 (roundingExponent n d)).2 hlt
  constructor
  · show nearest _ _ ≤ _
    exact (nearest_le _ _).trans hdiv
  · rcases hge with heq | hge
    · exact .inr heq
    · refine .inl (le_trans ?_ (le_nearest _ _))
      refine Nat.not_lt.1 fun hless => ?_
      exact absurd ((scaled_div_lt_iff hd 52 _).1 hless) (not_lt.2 hge)

/-- A quotient that is no greater than some double is not rounded beyond all doubles. -/
theorem rounded_lt (hn : n ≠ 0) {z : Finite} (hz : (n : ℚ) / d ≤ z.magnitude) :
    rounded n d * unit n d < 2 ^ (1024 : ℤ) := by
  have hle : rounded n d * unit n d ≤ z.magnitude := by
    -- The magnitude of the double is itself a double, so it is not nearer.
    have hnear := rounded_nearest hd hn { z with negative := false }
    rw [Finite.value_of_positive rfl] at hnear
    change _ ≤ |z.magnitude - _| at hnear
    have hdist : |z.magnitude - (n : ℚ) / d| = z.magnitude - n / d := abs_of_nonneg (by linarith)
    rw [hdist] at hnear
    have := le_abs_self (rounded n d * unit n d - (n : ℚ) / d)
    linarith
  have hexp := z.canonical.2.2.1
  exact (hle.trans_lt z.magnitude_lt).trans_le (zpow_le_zpow_right₀ one_le_two (by omega))

end

/-! ## Doubles from multiples -/

theorem lt_of_two_pow_le {m k : ℕ} {e t : ℤ} (hk : 2 ^ k ≤ m) (h : (m : ℚ) * 2 ^ e < 2 ^ t) :
    e + k < t := by
  refine lt_of_zpow_lt (lt_of_le_of_lt ?_ h)
  rw [add_comm, zpow_add₀ two_ne_zero, zpow_natCast]
  exact mul_le_mul_of_nonneg_right (by exact_mod_cast hk) (by positivity)

theorem lt_of_lt_two_pow {m k : ℕ} {e t : ℤ} (hk : m < 2 ^ k) (h : (2 : ℚ) ^ t ≤ m * 2 ^ e) :
    t < e + k := by
  refine lt_of_zpow_lt (h.trans_lt ?_)
  rw [add_comm, zpow_add₀ two_ne_zero, zpow_natCast]
  exact mul_lt_mul_of_pos_right (by exact_mod_cast hk) (by positivity)

/-- A significand of at most fifty-three bits makes a double, unless it is too great. -/
theorem exists_pack (s : Bool) {m : ℕ} {e : ℤ} (hmost : m ≤ 2 ^ 53)
    (hnormal : 2 ^ 52 ≤ m ∨ e = -1074) (hleast : -1074 ≤ e)
    (hlt : (m : ℚ) * 2 ^ e < 2 ^ (1024 : ℤ)) :
    ∃ x : Finite, pack s m e = .finite x ∧ x.negative = s ∧ x.magnitude = m * 2 ^ e ∧
      (m % 2 = 0 → x.significand % 2 = 0) := by
  unfold pack
  by_cases hm : m = Nat.pow 2 53
  · have hcanonical : Canonical (Nat.pow 2 52) (e + 1) := by
      have := lt_of_two_pow_le (le_of_eq hm.symm) hlt
      exact ⟨by decide, by omega, by omega, .inl le_rfl⟩
    rw [if_pos hm]
    dsimp only
    rw [dif_pos hcanonical]
    refine ⟨_, rfl, rfl, ?_, fun _ => (by decide : Nat.pow 2 52 % 2 = 0)⟩
    rw [hm]
    show ((Nat.pow 2 52 : ℕ) : ℚ) * 2 ^ (e + 1) = _
    rw [zpow_add₀ two_ne_zero]
    push_cast
    ring
  · have hcanonical : Canonical m e := by
      refine ⟨lt_of_le_of_ne hmost hm, hleast, ?_, hnormal⟩
      rcases hnormal with hge | heq
      · have := lt_of_two_pow_le hge hlt
        omega
      · omega
    rw [if_neg hm]
    dsimp only
    rw [dif_pos hcanonical]
    exact ⟨_, rfl, rfl, rfl, id⟩

/-- Up to half of the least double, zero is at least as near. -/
theorem rounds_zero_of_small (s : Bool) {q : ℚ} (h : |q| ≤ 2 ^ (-1075 : ℤ)) :
    (Finite.zero s).Rounds q := by
  have hzero : (Finite.zero s).value = 0 := by
    rw [← abs_eq_zero, Finite.abs_value]
    exact zero_mul _
  refine ⟨fun y => ?_, fun y _ _ => rfl⟩
  rw [hzero, zero_sub, abs_neg]
  by_cases hy : y.significand = 0
  · have hvalue : y.value = 0 := by
      rw [← abs_eq_zero, Finite.abs_value, Finite.magnitude, hy, Nat.cast_zero, zero_mul]
    rw [hvalue, zero_sub, abs_neg]
  · have hleast := Finite.two_zpow_le_magnitude hy
    have hfar := abs_sub_abs_le_abs_sub y.value q
    have hdouble : (2 : ℚ) ^ (-1074 : ℤ) = 2 * 2 ^ (-1075 : ℤ) := zpow_one_add₀ two_ne_zero (-1075)
    rw [hdouble] at hleast
    rw [Finite.abs_value] at hfar
    generalize (2 : ℚ) ^ (-1075 : ℤ) = half at *
    linarith

theorem rounds_zero (s : Bool) : (Finite.zero s).Rounds 0 :=
  rounds_zero_of_small s (by
    rw [abs_zero]
    positivity)

/-- A double with the magnitude and significand of the multiple is what the quotient rounds to. -/
theorem rounds_of_rounded {n d : ℕ} (hd : d ≠ 0) (hn : n ≠ 0) {x : Finite}
    (hvalue : x.value = rounded n d * unit n d)
    (heven : rounded n d % 2 = 0 → x.significand % 2 = 0) : x.Rounds (n / d) := by
  constructor
  · intro y
    rw [hvalue]
    exact rounded_nearest hd hn y
  · intro y hne htie
    rw [hvalue] at hne htie
    exact heven (rounded_even hd hn y hne htie)

/-- A quotient whose multiple of the unit is not too great rounds to a double. -/
theorem rounds_of_lt {n d : ℕ} (hd : d ≠ 0) (hn : n ≠ 0) (s : Bool)
    (hlt : rounded n d * unit n d < 2 ^ (1024 : ℤ)) :
    ∃ x, ofRatio s n d = .finite x ∧ x.negative = s ∧
      x.Rounds (if s then -((n : ℚ) / d) else n / d) := by
  obtain ⟨hleast, -, -⟩ := roundingExponent_bounds hn hd
  obtain ⟨hmost, hnormal⟩ := rounded_bounds hd hn
  obtain ⟨x, hx, hsign, hmagnitude, heven⟩ := exists_pack s hmost hnormal hleast hlt
  refine ⟨x, (ofRatio_eq hn).trans hx, hsign, ?_⟩
  cases s with
  | true =>
    have hvalue : x.neg.value = rounded n d * unit n d := by
      rw [Finite.value_neg, Finite.value_of_negative hsign, neg_neg]
      exact hmagnitude
    have hrounds := rounds_of_rounded hd hn hvalue heven
    rw [← x.neg_neg_eq, if_pos rfl]
    exact hrounds.neg
  | false =>
    have hvalue : x.value = rounded n d * unit n d :=
      (Finite.value_of_positive hsign).trans hmagnitude
    exact rounds_of_rounded hd hn hvalue heven

/-- A quotient that is no greater than some double rounds to a double. -/
theorem rounds_ofRatio {n d : ℕ} (hd : d ≠ 0) (s : Bool) {z : Finite}
    (hz : (n : ℚ) / d ≤ z.magnitude) :
    ∃ x, ofRatio s n d = .finite x ∧ x.negative = s ∧
      x.Rounds (if s then -((n : ℚ) / d) else n / d) := by
  by_cases hn : n = 0
  · subst hn
    refine ⟨.zero s, rfl, rfl, ?_⟩
    have hq : (if s = true then -((0 : ℕ) / d : ℚ) else (0 : ℕ) / d) = 0 := by simp
    rw [hq]
    exact rounds_zero s
  · exact rounds_of_lt hd hn s (rounded_lt hd hn hz)

/-- The quotient of a double by a count is the double nearest to the exact quotient. -/
theorem rounds_divNat (x : Finite) {k : ℕ} (hk : k ≠ 0) :
    ∃ y, (finite x).divNat k = .finite y ∧ y.negative = x.negative ∧ y.Rounds (x.value / k) := by
  have hquotient : (x.ratio.1 : ℚ) / (x.ratio.2 * k : ℕ) = x.magnitude / k := by
    rw [← x.ratio_eq, div_div, Nat.cast_mul]
  have hle : (x.ratio.1 : ℚ) / (x.ratio.2 * k : ℕ) ≤ x.magnitude := by
    rw [hquotient]
    exact div_le_self x.magnitude_nonneg (by exact_mod_cast Nat.one_le_iff_ne_zero.2 hk)
  obtain ⟨y, hy, hsign, hrounds⟩ :=
    rounds_ofRatio (mul_ne_zero x.ratio_ne_zero hk) x.negative hle
  refine ⟨y, ?_, hsign, ?_⟩
  · unfold divNat
    dsimp only
    rw [if_neg hk, hy]
  · rw [hquotient] at hrounds
    unfold Finite.value
    cases h : x.negative with
    | true =>
      rw [h, if_pos rfl] at hrounds
      rw [if_pos rfl, neg_div]
      exact hrounds
    | false =>
      rw [h] at hrounds
      exact hrounds

end Binary64

end StoreGateway.Number
