import StoreGateway.Number.Scaled
import StoreGateway.Proofs.NearestDoubles

/-!
# Short numbers are read as the nearest double

Integers below `2 ^ 53` are doubles, and so are the powers of ten up to `10 ^ 22`. A number made of
both is read with a single rounding, that of the last step, and what is rounded there is the number
itself. So it is read as the nearest double, though only a few operations are made.

* `ofRatio_congr`: a quotient is rounded the same way however it is written;
* `exists_finite`, `powerOfTen_eq`: the integers and the powers of ten that are doubles;
* `kept_eq`: digits that fit are all kept;
* `scale_eq`: the last step rounds the exact quotient;
* `Spelling.Short`, `Spelling.scaled_eq_round`: short numbers, and how they are read.
-/

namespace StoreGateway.Number

open StoreGateway.Text

namespace Binary64

/-! ## Quotients -/

section

variable {n d n' d' : ℕ}

theorem roundingExponent_le (hn : n ≠ 0) (hd : d ≠ 0) (hn' : n' ≠ 0) (hd' : d' ≠ 0)
    (h : (n : ℚ) / d = n' / d') : roundingExponent n d ≤ roundingExponent n' d' := by
  obtain ⟨-, -, hge⟩ := roundingExponent_bounds hn hd
  obtain ⟨hleast, hlt, -⟩ := roundingExponent_bounds hn' hd'
  rcases hge with heq | hge
  · omega
  · rw [h] at hge
    have := lt_of_zpow_lt (hge.trans_lt hlt)
    omega

theorem nearest_mul_right (n d : ℕ) {k : ℕ} (hk : k ≠ 0) : nearest (n * k) (d * k) = nearest n d := by
  have hpos := Nat.pos_of_ne_zero hk
  have hlt : 2 * (n % d * k) < d * k ↔ 2 * (n % d) < d := by
    rw [← Nat.mul_assoc, Nat.mul_lt_mul_right hpos]
  have hgt : d * k < 2 * (n % d * k) ↔ d < 2 * (n % d) := by
    rw [← Nat.mul_assoc, Nat.mul_lt_mul_right hpos]
  unfold nearest
  dsimp only
  rw [Nat.mul_div_mul_right _ _ hpos, Nat.mul_mod_mul_right]
  simp only [hlt, hgt]

/-- A quotient is rounded the same way however it is written. -/
theorem ofRatio_congr (s : Bool) (hd : d ≠ 0) (hd' : d' ≠ 0) (h : (n : ℚ) / d = n' / d') :
    ofRatio s n d = ofRatio s n' d' := by
  have hcross : n * d' = n' * d := by
    rw [div_eq_div_iff (Nat.cast_ne_zero.2 hd) (Nat.cast_ne_zero.2 hd')] at h
    exact_mod_cast h
  by_cases hn : n = 0
  · subst hn
    have hn' : n' = 0 := by
      rw [Nat.zero_mul] at hcross
      exact (Nat.mul_eq_zero.1 hcross.symm).resolve_right hd
    rw [hn']
    rfl
  · have hn' : n' ≠ 0 := by
      rintro rfl
      rw [Nat.zero_mul] at hcross
      exact (Nat.mul_eq_zero.1 hcross).elim hn hd'
    have hexp : roundingExponent n d = roundingExponent n' d' :=
      le_antisymm (roundingExponent_le hn hd hn' hd' h) (roundingExponent_le hn' hd' hn hd h.symm)
    rw [ofRatio_eq hn, ofRatio_eq hn', rounded, rounded, ← hexp]
    generalize (-roundingExponent n d).toNat = a
    generalize (roundingExponent n d).toNat = b
    have hleft := nearest_mul_right (n * Nat.pow 2 a) (d * Nat.pow 2 b) hd'
    have hright := nearest_mul_right (n' * Nat.pow 2 a) (d' * Nat.pow 2 b) hd
    rw [← hleft, ← hright, Nat.mul_right_comm n, hcross, Nat.mul_right_comm n', Nat.mul_right_comm d,
      Nat.mul_right_comm d', Nat.mul_comm d d']

end

/-! ## Integers and powers of ten -/

/-- Every integer of at most fifty-three bits is a double. -/
theorem exists_finite (s : Bool) {n : ℕ} (hn : n ≠ 0) (hlt : n < 2 ^ 53) :
    ∃ x : Finite, x.negative = s ∧ x.significand ≠ 0 ∧ x.magnitude = n := by
  have hlog : n.log2 ≤ 52 := Nat.le_of_lt_succ ((Nat.log2_lt hn).2 hlt)
  have hsplit : 2 ^ n.log2 * 2 ^ (52 - n.log2) = 2 ^ 52 := by
    rw [← Nat.pow_add, Nat.add_sub_cancel' hlog]
  have hlow : 2 ^ 52 ≤ n * 2 ^ (52 - n.log2) := by
    rw [← hsplit]
    exact Nat.mul_le_mul_right _ (Nat.log2_self_le hn)
  have hhigh : n * 2 ^ (52 - n.log2) < 2 ^ 53 := by
    have hbit : n < 2 * 2 ^ n.log2 := by
      have := Nat.lt_log2_self (n := n)
      omega
    calc n * 2 ^ (52 - n.log2) < 2 * 2 ^ n.log2 * 2 ^ (52 - n.log2) :=
          Nat.mul_lt_mul_of_pos_right hbit (Nat.two_pow_pos _)
      _ = 2 * 2 ^ 52 := by rw [Nat.mul_assoc, hsplit]
      _ = 2 ^ 53 := rfl
  refine ⟨⟨s, n * 2 ^ (52 - n.log2), -(52 - n.log2 : ℕ), hhigh, by omega, by omega, .inl hlow⟩, rfl,
    by positivity, ?_⟩
  show ((n * 2 ^ (52 - n.log2) : ℕ) : ℚ) * 2 ^ (-((52 - n.log2 : ℕ) : ℤ)) = n
  rw [zpow_neg, zpow_natCast, Nat.cast_mul, Nat.cast_pow, Nat.cast_ofNat,
    mul_inv_cancel_right₀ (by positivity)]

/-- So it is converted without loss. -/
theorem ofRatio_one (s : Bool) {n : ℕ} (h : n < 2 ^ 53) :
    ∃ x : Finite, ofRatio s n 1 = .finite x ∧ x.negative = s ∧ x.magnitude = n := by
  by_cases hn : n = 0
  · subst hn
    exact ⟨.zero s, rfl, rfl, (zero_mul _).trans Nat.cast_zero.symm⟩
  · obtain ⟨x, rfl, hx, hmagnitude⟩ := exists_finite s hn h
    refine ⟨x, ofRatio_of_magnitude hx one_ne_zero ?_, rfl, hmagnitude⟩
    rw [hmagnitude, Nat.cast_one, div_one]

section

variable {x : Finite} {n k : ℕ} (hx : x.magnitude = n)
include hx

theorem mulNat_eq (k : ℕ) : (finite x).mulNat k = ofRatio x.negative (n * k) 1 := by
  refine ofRatio_congr _ x.ratio_ne_zero one_ne_zero ?_
  rw [Nat.cast_mul, Nat.cast_mul, mul_div_right_comm, x.ratio_eq, hx, Nat.cast_one, div_one]

theorem divNat_eq (hk : k ≠ 0) : (finite x).divNat k = ofRatio x.negative n k := by
  have hquotient : (x.ratio.1 : ℚ) / (x.ratio.2 * k : ℕ) = n / k := by
    rw [Nat.cast_mul, ← div_div, x.ratio_eq, hx]
  unfold divNat
  dsimp only
  rw [if_neg hk]
  exact ofRatio_congr _ (Nat.mul_ne_zero x.ratio_ne_zero hk) hk hquotient

end

end Binary64

/-- Up to this exponent a power of ten is a double. -/
theorem powerOfTen_eq {k : ℕ} (h : k ≤ 22) : powerOfTen k = 10 ^ k := by
  have hall : (List.range 23).all (fun k => powerOfTen k = 10 ^ k) = true := by decide +kernel
  exact of_decide_eq_true (List.all_eq_true.1 hall k (List.mem_range.2 (by omega)))

/-- The last step rounds the exact quotient. -/
theorem scale_eq (s : Bool) {n : ℕ} {e : ℤ} (hn : n < 2 ^ 53) (he : e.natAbs ≤ 22) :
    scale s n e = .ofRatio s (n * 10 ^ e.toNat) (10 ^ (-e).toNat) := by
  obtain ⟨x, hx, rfl, hmagnitude⟩ := Binary64.ofRatio_one s hn
  unfold scale
  dsimp only
  rw [hx]
  by_cases hneg : e < 0
  · have hsmall : (-e).toNat ≤ 22 := by omega
    have hzero : e.toNat = 0 := by omega
    have hhand : (-e).toNat ≤ greatestPower := Nat.le_trans hsmall (by decide)
    rw [if_pos hneg, Binary64.divPowerOfTen, if_pos hhand, powerOfTen_eq hsmall,
      Binary64.divNat_eq hmagnitude (pow_ne_zero _ (by decide)), hzero, Nat.pow_zero, Nat.mul_one]
  · have hsmall : e.toNat ≤ 22 := by omega
    have hzero : (-e).toNat = 0 := by omega
    have hhand : e ≤ (greatestPower : ℤ) := by
      show e ≤ 308
      omega
    rw [if_neg hneg, if_pos hhand, powerOfTen_eq hsmall, Binary64.mulNat_eq hmagnitude, hzero,
      Nat.pow_zero]

/-- A short decimal is rounded as a quotient of natural numbers. -/
theorem Decimal.round_eq {d : Decimal} (hd : d.coefficient < 2 ^ 53) (he : d.exponent.natAbs ≤ 22) :
    d.round = .ofRatio d.negative (d.coefficient * 10 ^ d.exponent.toNat) (10 ^ (-d.exponent).toNat) := by
  by_cases hzero : d.coefficient = 0
  · rw [Decimal.round, if_pos (.inl hzero), hzero, Nat.zero_mul]
    rfl
  · have hpos := List.length_pos_iff.2 (digits_ne_nil d.coefficient)
    have hlength : (digits d.coefficient).length - 1 < 16 := by
      rw [← Nat.pow_lt_pow_iff_right (show 1 < 10 by decide)]
      exact ((pow_length_le hzero).trans_lt hd).trans (by decide)
    unfold Decimal.round
    dsimp only
    rw [if_neg (by omega), if_neg (by omega)]
    rfl

/-! ## Digits -/

theorem le_ofDigitChars_append (n : ℕ) (ds es : List Char) :
    Nat.ofDigitChars 10 ds n ≤ Nat.ofDigitChars 10 (ds ++ es) n := by
  rw [Nat.ofDigitChars_append]
  exact le_ofDigitChars _ _

/-- Digits that fit are all taken. -/
theorem takeDigits_of_lt {n : ℕ} {ds : List Char} (h : Nat.ofDigitChars 10 ds n < Nat.pow 2 64) :
    takeDigits n ds = (Nat.ofDigitChars 10 ds n, []) := by
  induction ds generalizing n with
  | nil => rfl
  | cons c cs ih =>
    have hfirst : Nat.ofDigitChars 10 [c] n < Nat.pow 2 64 :=
      Nat.lt_of_le_of_lt (le_ofDigitChars_append n [c] cs) h
    unfold takeDigits
    rw [if_pos hfirst]
    exact ih h

namespace Spelling

/-- When all digits fit, they are kept. -/
theorem kept_eq {s : Spelling} (h : s.decimal.coefficient < Nat.pow 2 64) :
    s.kept = (s.decimal.coefficient, -((s.fraction.getD []).length : ℤ)) := by
  have hvalue : s.decimal.coefficient =
      Nat.ofDigitChars 10 (s.fraction.getD []) (Nat.ofDigitChars 10 s.whole 0) :=
    Nat.ofDigitChars_append 0
  have hwhole : Nat.ofDigitChars 10 s.whole 0 < Nat.pow 2 64 :=
    Nat.lt_of_le_of_lt (le_ofDigitChars_append 0 s.whole (s.fraction.getD [])) h
  rw [hvalue] at h
  unfold kept
  dsimp only
  rw [takeDigits_of_lt hwhole]
  dsimp only
  rw [takeDigits_of_lt h, hvalue]
  simp

/--
The digits and the exponent of ten are so small that both are doubles. The exponent that is written
may be greater than that, but not out of all bounds.
-/
structure Short (s : Spelling) : Prop where
  coefficient : s.decimal.coefficient < 2 ^ 53
  exponent : s.decimal.exponent.natAbs ≤ 22
  written : ∀ p, s.exponent = some p → value p.digits < exponentLimit

/-- Short numbers are read as the nearest double. -/
theorem scaled_eq_round {s : Spelling} (h : s.Short) : s.scaled = s.round := by
  have hkept := s.kept_eq (h.coefficient.trans (by decide))
  have hscale := scale_eq s.decimal.negative h.coefficient h.exponent
  unfold scaled round
  rw [Decimal.round_eq h.coefficient h.exponent, ← hscale, hkept]
  dsimp only
  cases hexp : s.exponent with
  | none =>
    have hdecimal : s.decimal.exponent = -((s.fraction.getD []).length : ℤ) := by
      unfold decimal
      rw [hexp]
      exact Int.zero_sub _
    rw [hdecimal]
    rfl
  | some p =>
    have hdecimal : s.decimal.exponent =
        -((s.fraction.getD []).length : ℤ) + p.sign.apply (value p.digits) := by
      unfold decimal
      rw [hexp]
      exact (neg_add_eq_sub _ _).symm
    dsimp only
    rw [if_pos (h.written p hexp), hdecimal]
    rfl

end Spelling

end StoreGateway.Number
