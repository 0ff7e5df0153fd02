import Mathlib.Data.List.TakeWhile
import StoreGateway.Number.Shortest
import StoreGateway.Proofs.Rounding

/-!
# A double is read back from its shortest spelling

However digits and exponent are laid out, they denote the same decimal up to zeros at the end of its
coefficient, and the zeros that are left out are made up for by the exponent. So a double that is
written in full is read back because its decimal is its magnitude, and one that is written with fewer
digits because that was tried before.

* `decimal_behind_point`, `decimal_filled`, `decimal_around_point`, `decimal_scientific`: what digits
  denote in each of the layouts;
* `decimal_spell`: what laid out digits denote;
* `magnitude_spellDecimal`: leaving out zeros changes no magnitude;
* `round_shortest`: a double is read back from its shortest spelling;
* `shortest_eq_spell`, `wellFormed_spell`, `not_isInteger_spell`: the form of a shortest spelling.
-/

namespace StoreGateway.Number

open StoreGateway.Text

/-! ## Zeros at the end -/

theorem stripZeros_append (ds : List Char) : ∃ k, stripZeros ds ++ List.replicate k '0' = ds := by
  have hsplit := List.takeWhile_append_dropWhile (p := (· = '0')) (l := (ds.drop 1).reverse)
  have hzeros : (ds.drop 1).reverse.takeWhile (· = '0') =
      List.replicate ((ds.drop 1).reverse.takeWhile (· = '0')).length '0' :=
    List.eq_replicate_of_mem fun c hc => by simpa using List.mem_takeWhile_imp hc
  refine ⟨((ds.drop 1).reverse.takeWhile (· = '0')).length, ?_⟩
  have htail := congrArg List.reverse hsplit
  rw [hzeros, List.reverse_append, List.reverse_replicate, List.reverse_reverse] at htail
  unfold stripZeros
  rw [List.append_assoc, htail, List.take_append_drop]

theorem stripZeros_ne_nil {ds : List Char} (h : ds ≠ []) : stripZeros ds ≠ [] := by
  obtain ⟨d, ds, rfl⟩ := List.exists_cons_of_ne_nil h
  exact List.cons_ne_nil _ _

theorem head?_stripZeros (ds : List Char) : (stripZeros ds).head? = ds.head? := by
  cases ds with
  | nil => rfl
  | cons d ds => rfl

theorem mem_of_mem_stripZeros {ds : List Char} {c : Char} (h : c ∈ stripZeros ds) : c ∈ ds := by
  obtain ⟨k, hk⟩ := stripZeros_append ds
  rw [← hk]
  exact List.mem_append_left _ h

/-! ## Laid out digits -/

namespace Layout

variable (l : Layout) (sign : Sign) {ds : List Char} (e : ℤ)

/-- Behind a point, zeros in front of the digits only move them. -/
theorem decimal_behind_point (he : e < 0) :
    Spelling.decimal ⟨sign, ['0'], some (List.replicate (-e - 1).toNat '0' ++ ds), none⟩ =
      ⟨sign = .minus, value ds, e + 1 - ds.length⟩ := by
  have hval : value (['0'] ++ (List.replicate (-e - 1).toNat '0' ++ ds)) = value ds := by
    rw [← List.append_assoc, ← List.replicate_one, List.replicate_append_replicate,
      value_zeros_append]
  simp only [Spelling.decimal, Option.getD_some, Option.elim_none, hval, List.length_append,
    List.length_replicate]
  congr 1
  omega

/-- Too few digits are filled up with zeros, and one more zero stands behind the point. -/
theorem decimal_filled (n : ℕ) :
    Spelling.decimal ⟨sign, ds ++ List.replicate n '0', some ['0'], none⟩ =
      ⟨sign = .minus, value ds * 10 ^ (n + 1), -1⟩ := by
  have hval : value (ds ++ List.replicate n '0' ++ ['0']) = value ds * 10 ^ (n + 1) := by
    rw [List.append_assoc, ← List.replicate_one, List.replicate_append_replicate, value_append_zeros]
  simp only [Spelling.decimal, Option.getD_some, Option.elim_none, hval]
  rfl

/-- A point stands anywhere among the digits. -/
theorem decimal_around_point {n : ℕ} (h : n ≤ ds.length) :
    Spelling.decimal ⟨sign, ds.take n, some (ds.drop n), none⟩ =
      ⟨sign = .minus, value ds, n - ds.length⟩ := by
  simp only [Spelling.decimal, Option.getD_some, Option.elim_none, List.take_append_drop,
    List.length_drop]
  congr 1
  omega

theorem decimal_scientific (h : ds ≠ []) :
    Spelling.decimal ⟨sign, ds.take 1, if ds.length ≤ 1 then none else some (ds.drop 1),
        some ⟨'e', if e < 0 then .minus else .plus, digits e.natAbs⟩⟩ =
      ⟨sign = .minus, value ds, e + 1 - ds.length⟩ := by
  have hlen := List.length_pos_iff.2 h
  have hrest : Option.getD (if ds.length ≤ 1 then none else some (ds.drop 1)) [] = ds.drop 1 := by
    split
    · next hone => rw [List.drop_of_length_le hone]; rfl
    · rfl
  have happ : Sign.apply (if e < 0 then .minus else .plus) e.natAbs = e := by
    split
    · show -(e.natAbs : ℤ) = e
      omega
    · show (e.natAbs : ℤ) = e
      omega
  simp only [Spelling.decimal, hrest, List.take_append_drop, Option.elim_some, value_digits, happ,
    List.length_drop]
  congr 1
  omega

/-- The digits and the exponent are denoted, perhaps with zeros behind the digits. -/
theorem decimal_spell (h : ds ≠ []) : ∃ k : ℕ,
    (l.spell sign ds e).decimal = ⟨sign = .minus, value ds * 10 ^ k, e + 1 - ds.length - k⟩ := by
  unfold spell
  split
  · split
    · next hneg => exact ⟨0, by simpa using decimal_behind_point sign e hneg⟩
    · next hneg =>
      dsimp only
      by_cases hshort : ds.length ≤ e.toNat + 1
      · refine ⟨e.toNat + 1 - ds.length + 1, ?_⟩
        rw [List.take_of_length_le hshort, List.drop_of_length_le hshort]
        refine (decimal_filled sign _).trans ?_
        congr 1
        omega
      · refine ⟨0, ?_⟩
        have hcut : ¬(ds.drop (e.toNat + 1)).isEmpty = true := by simpa using hshort
        have hlong := Nat.le_of_not_le hshort
        rw [if_neg hcut, Nat.sub_eq_zero_of_le hlong, List.replicate_zero, List.append_nil,
          decimal_around_point sign hlong, Nat.pow_zero, Nat.mul_one]
        congr 1
        omega
  · exact ⟨0, by simpa using decimal_scientific sign e h⟩

theorem wellFormed_spell (h : ds ≠ []) (hds : ∀ c ∈ ds, c.isDigit = true) :
    (l.spell sign ds e).WellFormed := by
  have hzeros : ∀ n, ∀ c ∈ List.replicate n '0', c.isDigit = true := fun n c hc => by
    rw [List.eq_of_mem_replicate hc]
    rfl
  have htake : ds.take 1 ≠ [] := by
    obtain ⟨d, ds, rfl⟩ := List.exists_cons_of_ne_nil h
    exact List.cons_ne_nil _ _
  unfold spell
  split
  · split
    · refine ⟨by simp, ?_, by simp, by simp⟩
      rintro f ⟨⟩
      exact ⟨fun c hc => (List.mem_append.1 hc).elim (hzeros _ c) (hds c), by simp⟩
    · refine ⟨fun c hc => ?_, ?_, by simp, by simp⟩
      · exact (List.mem_append.1 hc).elim (fun hc => hds c (List.mem_of_mem_take hc)) (hzeros _ c)
      · rintro f ⟨⟩
        split
        · exact ⟨by simp, by simp⟩
        · next hne =>
          exact ⟨fun c hc => hds c (List.mem_of_mem_drop hc), fun _ => by simpa using hne⟩
  · refine ⟨fun c hc => hds c (List.mem_of_mem_take hc), fun f hf => ?_, fun _ => htake, ?_⟩
    · split at hf
      · cases hf
      · cases hf
        exact ⟨fun c hc => hds c (List.mem_of_mem_drop hc), fun hnil => absurd hnil htake⟩
    · rintro p ⟨⟩
      exact ⟨rfl, fun c => isDigit_of_mem_digits, digits_ne_nil _⟩

/-- A laid out double shows that it is no integer. -/
theorem not_isInteger_spell : (l.spell sign ds e).isInteger = false := by
  unfold spell
  split
  · split <;> rfl
  · simp [Spelling.isInteger]

theorem magnitude_spell (h : ds ≠ []) :
    (l.spell sign ds e).decimal.magnitude = value ds * 10 ^ (e + 1 - ds.length) := by
  obtain ⟨k, hk⟩ := l.decimal_spell sign e h
  have hpow : (10 : ℚ) ^ k ≠ 0 := pow_ne_zero k (by norm_num)
  rw [hk]
  unfold Decimal.magnitude
  push_cast
  rw [zpow_sub₀ (by norm_num), zpow_natCast, mul_assoc, mul_div_cancel₀ _ hpow]

/-- Zeros that are left out at the end of the coefficient are made up for by the exponent. -/
theorem magnitude_spellDecimal (c : ℕ) :
    (l.spellDecimal sign c e).decimal.magnitude = c * 10 ^ e := by
  obtain ⟨k, hk⟩ := stripZeros_append (digits c)
  have hlen := congrArg List.length hk
  have hval := congrArg value hk
  rw [List.length_append, List.length_replicate] at hlen
  rw [value_append_zeros, value_digits] at hval
  have hexp : e + (digits c).length - 1 + 1 - (stripZeros (digits c)).length = k + e := by omega
  calc (l.spellDecimal sign c e).decimal.magnitude = value (stripZeros (digits c)) * 10 ^ (k + e) := by
        rw [← hexp]
        exact magnitude_spell _ _ _ (stripZeros_ne_nil (digits_ne_nil c))
    _ = (value (stripZeros (digits c)) * 10 ^ k : ℕ) * 10 ^ e := by
        rw [zpow_add₀ (by norm_num), zpow_natCast]
        push_cast
        ring
    _ = c * 10 ^ e := by rw [hval]

theorem negative_spell (h : ds ≠ []) :
    (l.spell sign ds e).decimal.negative = (sign = .minus : Bool) := by
  obtain ⟨k, hk⟩ := l.decimal_spell sign e h
  rw [hk]

end Layout

/-! ## Shortest spellings -/

namespace Finite

theorem magnitude_exact (x : Finite) : (x.exact.1 : ℚ) * 10 ^ x.exact.2 = x.magnitude := by
  unfold exact magnitude
  split
  · next hneg =>
    have hpow : (10 : ℚ) ^ x.exponent = 2 ^ x.exponent * 5 ^ x.exponent := by
      rw [← mul_zpow]
      norm_num
    have hcancel : (5 : ℚ) ^ (-x.exponent).toNat * 5 ^ x.exponent = 1 := by
      rw [← zpow_natCast, ← zpow_add₀ (by norm_num), show ((-x.exponent).toNat : ℤ) + x.exponent = 0 by
        omega, zpow_zero]
    calc ((x.significand * 5 ^ (-x.exponent).toNat : ℕ) : ℚ) * 10 ^ x.exponent =
          x.significand * 2 ^ x.exponent * (5 ^ (-x.exponent).toNat * 5 ^ x.exponent) := by
          rw [hpow]
          push_cast
          ring
      _ = x.significand * 2 ^ x.exponent := by rw [hcancel, mul_one]
  · next hpos =>
    show ((x.significand * 2 ^ x.exponent.toNat : ℕ) : ℚ) * 10 ^ (0 : ℤ) = _
    rw [zpow_zero, mul_one, ← Int.toNat_of_nonneg (not_lt.1 hpos), zpow_natCast, Int.toNat_natCast]
    push_cast
    rfl

theorem sign_eq_minus (x : Finite) : decide (x.sign = .minus) = x.negative := by
  unfold sign
  cases x.negative <;> rfl

theorem eq_zero_of_isZero {x : Finite} (h : x.isZero = true) : x = zero x.negative := by
  obtain ⟨negative, m, e, hcanonical⟩ := x
  obtain rfl : m = 0 := of_decide_eq_true h
  obtain rfl : e = -1074 := hcanonical.2.2.2.resolve_left (by decide)
  rfl

theorem not_isZero {x : Finite} (h : x.isZero = false) : x.significand ≠ 0 :=
  of_decide_eq_false h

end Finite

theorem Decimal.round_zero {d : Decimal} (h : d.coefficient = 0) :
    d.round = .finite (.zero d.negative) :=
  if_pos (.inl h)

namespace Layout

variable (l : Layout) (x : Finite)

theorem round_spellDecimal_exact (hx : x.significand ≠ 0) :
    (l.spellDecimal x.sign x.exact.1 x.exact.2).round = .finite x := by
  refine Decimal.round_of_magnitude hx ?_ ?_
  · rw [← x.sign_eq_minus]
    exact negative_spell _ _ _ (stripZeros_ne_nil (digits_ne_nil _))
  · rw [magnitude_spellDecimal, x.magnitude_exact]

/-- The shortest spelling of a double that is not zero lays out a decimal that reads back as it. -/
theorem shortest_of_ne_zero (hx : x.isZero = false) : ∃ c e,
    l.shortest x = l.spellDecimal x.sign c e ∧ (l.spellDecimal x.sign c e).round = .finite x := by
  unfold shortest
  rw [if_neg (by rw [hx]; decide)]
  dsimp only
  split
  · next s hfound =>
    have hround := List.find?_some hfound
    obtain ⟨c, -, rfl⟩ := List.mem_map.1 (List.mem_of_find?_eq_some hfound)
    exact ⟨c.1, c.2, rfl, of_decide_eq_true hround⟩
  · exact ⟨_, _, rfl, l.round_spellDecimal_exact x (Finite.not_isZero hx)⟩

theorem round_spell_zero (hx : x.isZero = true) : (l.spell x.sign ['0'] 0).round = .finite x := by
  obtain ⟨k, hk⟩ := l.decimal_spell x.sign 0 (List.cons_ne_nil '0' [])
  unfold Spelling.round
  rw [hk, Decimal.round_zero (Nat.zero_mul _)]
  dsimp only
  rw [x.sign_eq_minus, ← Finite.eq_zero_of_isZero hx]

/-- A double is read back from its shortest spelling. -/
theorem round_shortest : (l.shortest x).round = .finite x := by
  cases hx : x.isZero with
  | true =>
    unfold shortest
    rw [if_pos hx]
    exact l.round_spell_zero x hx
  | false =>
    obtain ⟨c, e, heq, hround⟩ := l.shortest_of_ne_zero x hx
    rw [heq, hround]

theorem coefficient_ne_zero {sign : Sign} {c : ℕ} {e : ℤ} (hx : x.isZero = false)
    (h : (l.spellDecimal sign c e).round = .finite x) : c ≠ 0 := by
  rintro rfl
  obtain ⟨k, hk⟩ := l.decimal_spell sign (e + (digits 0).length - 1)
    (stripZeros_ne_nil (digits_ne_nil 0))
  unfold Spelling.round spellDecimal at h
  dsimp only at h
  rw [hk, Decimal.round_zero (Nat.zero_mul _)] at h
  cases h
  cases hx

/-- A shortest spelling lays out digits, with a zero in front for a zero only. -/
theorem shortest_eq_spell : ∃ ds e, l.shortest x = l.spell x.sign ds e ∧ ds ≠ [] ∧
    (∀ c ∈ ds, c.isDigit = true) ∧ (ds.head? = some '0' → e = 0) := by
  cases hx : x.isZero with
  | true =>
    refine ⟨['0'], 0, ?_, List.cons_ne_nil _ _, by simp, fun _ => rfl⟩
    unfold shortest
    rw [if_pos hx]
  | false =>
    obtain ⟨c, e, heq, hround⟩ := l.shortest_of_ne_zero x hx
    refine ⟨stripZeros (digits c), e + (digits c).length - 1, heq,
      stripZeros_ne_nil (digits_ne_nil c), fun d hd => isDigit_of_mem_digits (mem_of_mem_stripZeros hd),
      fun hzero => ?_⟩
    rw [head?_stripZeros] at hzero
    exact absurd hzero (head?_digits (l.coefficient_ne_zero x hx hround))

end Layout

end StoreGateway.Number
