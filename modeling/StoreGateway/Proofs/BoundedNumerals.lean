import Mathlib.Data.List.TakeWhile
import StoreGateway.Proofs.Numerals

/-!
# Numerals below a limit

Digits are read from left to right, and reading ends where what was read so far is too large, or at
the first character that is no digit. Which of the two comes first is told by the digits in front.

* `readDigits_eq`: what the reader makes of digits behind digits;
* `Unsigned`: an optional plus sign and digits that denote a number below a limit;
* `cause`: why a text is none, when it is not empty;
* `readBounded_eq_ok_of_unsigned`, `readBounded_eq_error_of_not_unsigned`: what is read, and why
  nothing is.
-/

namespace StoreGateway.Text

theorem ofDigitChars_cons (acc : Nat) (c : Char) (ds : List Char) :
    Nat.ofDigitChars 10 (c :: ds) acc = Nat.ofDigitChars 10 ds (Nat.ofDigitChars 10 [c] acc) := by
  rw [Nat.ofDigitChars_cons, Nat.ofDigitChars_cons, Nat.ofDigitChars_nil]

/-- The digits in front are too many, or there are only digits, or something else comes behind. -/
theorem readDigits_eq {limit acc : Nat} (hacc : acc < limit) (cs : List Char) :
    readDigits limit acc cs =
      if limit ≤ Nat.ofDigitChars 10 (cs.takeWhile Char.isDigit) acc then .error .tooLarge
      else if cs.all Char.isDigit then .ok (Nat.ofDigitChars 10 cs acc)
      else .error .invalidDigit := by
  induction cs generalizing acc with
  | nil =>
    have hlt : ¬limit ≤ Nat.ofDigitChars 10 [] acc := Nat.not_le.2 hacc
    rw [List.takeWhile_nil, if_neg hlt]
    rfl
  | cons c cs ih =>
    unfold readDigits
    dsimp only
    cases hc : c.isDigit with
    | true =>
      rw [if_pos rfl, List.takeWhile_cons_of_pos hc, List.all_cons, hc, Bool.true_and,
        ofDigitChars_cons acc c cs, ofDigitChars_cons acc c (cs.takeWhile _)]
      by_cases hnext : Nat.ofDigitChars 10 [c] acc < limit
      · rw [if_pos hnext, ih hnext]
      · -- What is too large stays so, whatever digits follow.
        have hlarge := Nat.le_trans (Nat.not_lt.1 hnext)
          (le_ofDigitChars (Nat.ofDigitChars 10 [c] acc) (cs.takeWhile Char.isDigit))
        rw [if_neg hnext, if_pos hlarge]
    | false =>
      have hlt : ¬limit ≤ Nat.ofDigitChars 10 [] acc := Nat.not_le.2 hacc
      rw [List.takeWhile_cons_of_neg (by simp [hc]), if_neg hlt, List.all_cons, hc, Bool.false_and]
      rfl

/-- An optional plus sign and digits that denote a number below a limit. -/
def Unsigned (limit : Nat) (cs : List Char) (n : Nat) : Prop :=
  ∃ ds, (cs = ds ∨ cs = '+' :: ds) ∧ ds ≠ [] ∧ (∀ c ∈ ds, c.isDigit = true) ∧ value ds = n ∧
    n < limit

/-- A text without one plus sign in front. -/
def afterPlus : List Char → List Char
  | '+' :: cs => cs
  | cs => cs

theorem eq_or_eq_cons_afterPlus (cs : List Char) :
    cs = afterPlus cs ∨ cs = '+' :: afterPlus cs := by
  unfold afterPlus
  split
  · exact .inr rfl
  · exact .inl rfl

theorem afterPlus_of_ne {cs : List Char} (h : ∀ ds, cs ≠ '+' :: ds) : afterPlus cs = cs := by
  unfold afterPlus
  split
  · next ds => exact absurd rfl (h ds)
  · rfl

theorem unsigned_iff {limit : Nat} {cs : List Char} {n : Nat} :
    Unsigned limit cs n ↔ afterPlus cs ≠ [] ∧ (afterPlus cs).all Char.isDigit = true ∧
      value (afterPlus cs) = n ∧ n < limit := by
  rw [List.all_eq_true]
  constructor
  · rintro ⟨ds, rfl | rfl, hne, hds, hvalue, hlt⟩
    · have hafter : afterPlus cs = cs := afterPlus_of_ne fun ds h =>
        absurd (hds '+' (h ▸ List.mem_cons_self)) (by decide)
      rw [hafter]
      exact ⟨hne, hds, hvalue, hlt⟩
    · exact ⟨hne, hds, hvalue, hlt⟩
  · rintro ⟨hne, hds, hvalue, hlt⟩
    exact ⟨afterPlus cs, eq_or_eq_cons_afterPlus cs, hne, hds, hvalue, hlt⟩

/-- A text denotes one number only. -/
theorem Unsigned.unique {limit : Nat} {cs : List Char} {m n : Nat} (hm : Unsigned limit cs m)
    (hn : Unsigned limit cs n) : m = n := by
  obtain ⟨-, -, hm, -⟩ := unsigned_iff.1 hm
  obtain ⟨-, -, hn, -⟩ := unsigned_iff.1 hn
  exact hm.symm.trans hn

theorem readBounded_eq (limit : Nat) {cs : List Char} (h : cs ≠ []) :
    readBounded limit cs =
      if afterPlus cs = [] then .error .invalidDigit else readDigits limit 0 (afterPlus cs) := by
  unfold readBounded
  split
  · exact absurd rfl h
  · rfl
  · next ds hne =>
    have hds : ¬afterPlus ('+' :: ds) = [] := hne
    rw [if_neg hds]
    rfl
  · next hplus =>
    rw [afterPlus_of_ne hplus, if_neg h]

/-- Why a text is no numeral below the limit: the digits in front denote too large a number, or
there are none, or something else comes behind them. -/
def cause (limit : Nat) (cs : List Char) : NumeralError :=
  if limit ≤ value ((afterPlus cs).takeWhile Char.isDigit) then .tooLarge else .invalidDigit

section
variable {limit : Nat} (hlimit : 0 < limit) {cs : List Char} (hcs : cs ≠ [])
include hlimit hcs

theorem readBounded_eq_ok_of_unsigned {n : Nat} (h : Unsigned limit cs n) :
    readBounded limit cs = .ok n := by
  obtain ⟨hne, hds, hvalue, hlt⟩ := unsigned_iff.1 h
  have htake : (afterPlus cs).takeWhile Char.isDigit = afterPlus cs :=
    List.takeWhile_eq_self_iff.2 (List.all_eq_true.1 hds)
  have hfits : ¬limit ≤ Nat.ofDigitChars 10 (afterPlus cs) 0 := by
    rw [← hvalue] at hlt
    exact Nat.not_le.2 hlt
  rw [readBounded_eq limit hcs, if_neg hne, readDigits_eq hlimit, htake, if_neg hfits, if_pos hds]
  exact congrArg Except.ok hvalue

theorem readBounded_eq_error_of_not_unsigned (h : ∀ n, ¬Unsigned limit cs n) :
    readBounded limit cs = .error (cause limit cs) := by
  rw [readBounded_eq limit hcs]
  unfold cause
  by_cases hne : afterPlus cs = []
  · have hfits : ¬limit ≤ value [] := Nat.not_le.2 hlimit
    rw [if_pos hne, hne, List.takeWhile_nil, if_neg hfits]
  · rw [if_neg hne, readDigits_eq hlimit]
    by_cases hlarge : limit ≤ value ((afterPlus cs).takeWhile Char.isDigit)
    · rw [if_pos hlarge]
      exact if_pos hlarge
    · rw [if_neg hlarge]
      refine (if_neg hlarge).trans (if_neg fun hds => ?_)
      -- Digits only, and few enough, would be a numeral.
      rw [List.takeWhile_eq_self_iff.2 (List.all_eq_true.1 hds)] at hlarge
      exact h _ (unsigned_iff.2 ⟨hne, hds, rfl, Nat.not_le.1 hlarge⟩)

end

end StoreGateway.Text
