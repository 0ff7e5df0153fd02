import Mathlib.Algebra.Ring.Nat
import StoreGateway.Text.Numeral

/-!
# Digits and their values

* `value_append`, `value_zeros`: the number that digits one behind the other denote;
* `head?_digits`: a positive number has no zero in front;
* `lt_pow_length`, `pow_length_le`: the number of digits bounds a number from both sides;
* `ofList_signed`: the text of an integer;
* `takeSign_absent`, `takeWhile_digits`, `dropWhile_digits`: where a sign and digits end;
* `takeWhile_append_of_head?`, `dropWhile_append_of_head?`: where characters of any class end.
-/

namespace StoreGateway.Text

/-! ## Values -/

theorem value_append (ds es : List Char) : value (ds ++ es) = value ds * 10 ^ es.length + value es := by
  unfold value
  rw [Nat.ofDigitChars_append, Nat.ofDigitChars_eq_ofDigitChars_zero, Nat.mul_comm]

theorem value_zeros (n : Nat) : value (List.replicate n '0') = 0 := by
  unfold value
  rw [Nat.ofDigitChars_replicate_zero, Nat.mul_zero]

theorem value_zeros_append (n : Nat) (ds : List Char) :
    value (List.replicate n '0' ++ ds) = value ds := by
  rw [value_append, value_zeros, Nat.zero_mul, Nat.zero_add]

theorem value_append_zeros (ds : List Char) (n : Nat) :
    value (ds ++ List.replicate n '0') = value ds * 10 ^ n := by
  rw [value_append, value_zeros, List.length_replicate, Nat.add_zero]

/-- Digits behind a number do not make it smaller. -/
theorem le_ofDigitChars (acc : Nat) (ds : List Char) : acc ≤ Nat.ofDigitChars 10 ds acc := by
  rw [Nat.ofDigitChars_eq_ofDigitChars_zero]
  have hpow : 0 < 10 ^ ds.length := Nat.pow_pos (by decide)
  have hmul : acc ≤ 10 ^ ds.length * acc := Nat.le_mul_of_pos_left acc hpow
  exact Nat.le_trans hmul (Nat.le_add_right _ _)

/-! ## Digits of a number -/

/-- A positive number has no zero in front. -/
theorem head?_digits {n : Nat} (h : n ≠ 0) : (digits n).head? ≠ some '0' := by
  induction n using Nat.strongRecOn with
  | ind n ih =>
    unfold digits at ih ⊢
    rw [Nat.toDigits_eq_if (by decide)]
    split
    · next hlt =>
      rintro hzero
      have hval := value_digits n
      unfold digits value at hval
      rw [Nat.toDigits_of_lt_base hlt, Option.some.inj hzero] at hval
      exact h hval.symm
    · next hge =>
      have hrest := ih (n / 10) (by omega) (by omega)
      obtain ⟨d, ds, hds⟩ := List.exists_cons_of_ne_nil (digits_ne_nil (n / 10))
      unfold digits at hds
      rw [hds] at hrest ⊢
      exact hrest

theorem lt_pow_length (n : Nat) : n < 10 ^ (digits n).length :=
  (Nat.length_toDigits_le_iff (by decide) (List.length_pos_iff.2 (digits_ne_nil n))).1 (Nat.le_refl _)

theorem pow_length_le {n : Nat} (h : n ≠ 0) : 10 ^ ((digits n).length - 1) ≤ n := by
  by_cases hlen : (digits n).length - 1 = 0
  · rw [hlen]
    omega
  · refine Nat.le_of_not_lt fun hlt => ?_
    have hle : (digits n).length ≤ (digits n).length - 1 :=
      (Nat.length_toDigits_le_iff (by decide) (Nat.pos_of_ne_zero hlen)).2 hlt
    omega

theorem ofList_signed (i : Int) : String.ofList (signed i) = toString i := by
  cases i with
  | ofNat n => rfl
  | negSucc n =>
    rw [← String.toList_inj, String.toList_ofList]
    show '-' :: digits (n + 1) = ("-" ++ String.ofList (digits (n + 1))).toList
    simp

/-! ## Where signs and digits end -/

/-- The text does not go on with a digit. -/
def NoDigit (cs : List Char) : Prop :=
  ∀ c ∈ cs.head?, c.isDigit = false

theorem noDigit_nil : NoDigit [] := by
  rintro c ⟨⟩

theorem noDigit_cons {c : Char} (h : c.isDigit = false) (cs : List Char) : NoDigit (c :: cs) := by
  rintro d ⟨⟩
  exact h

section

variable {p : Char → Bool} {as cs : List Char} (has : ∀ c ∈ as, p c = true)
  (hcs : ∀ c ∈ cs.head?, p c = false)
include has hcs

theorem takeWhile_append_of_head? : (as ++ cs).takeWhile p = as := by
  rw [List.takeWhile_append_of_pos has]
  cases cs with
  | nil => simp
  | cons c cs => simp [hcs c rfl]

theorem dropWhile_append_of_head? : (as ++ cs).dropWhile p = cs := by
  rw [List.dropWhile_append_of_pos has]
  cases cs with
  | nil => rfl
  | cons c cs => simp [hcs c rfl]

end

section

variable {ds cs : List Char} (hds : ∀ c ∈ ds, c.isDigit = true) (hcs : NoDigit cs)
include hds hcs

theorem takeWhile_digits : (ds ++ cs).takeWhile Char.isDigit = ds :=
  takeWhile_append_of_head? hds hcs

theorem dropWhile_digits : (ds ++ cs).dropWhile Char.isDigit = cs :=
  dropWhile_append_of_head? hds hcs

end

/-- What does not begin with a sign has none. -/
theorem takeSign_absent {cs : List Char} (h : ∀ c ∈ cs.head?, c ≠ '+' ∧ c ≠ '-') :
    takeSign cs = (.absent, cs) := by
  unfold takeSign
  split
  · exact absurd rfl (h '+' rfl).1
  · exact absurd rfl (h '-' rfl).2
  · rfl

theorem not_sign_of_isDigit {c : Char} (h : c.isDigit = true) : c ≠ '+' ∧ c ≠ '-' := by
  constructor <;> rintro rfl <;> exact absurd h (by decide)

end StoreGateway.Text
