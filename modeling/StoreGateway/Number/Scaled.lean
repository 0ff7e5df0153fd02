import StoreGateway.Number.Spelling

/-!
# Numbers read in a few operations

A written number can be read without long arithmetic: its digits are taken into an integer of
sixty-four bits, as far as they fit, and the integer is multiplied or divided by a power of ten. Every
step is rounded for itself, so the result need not be the double nearest to the number, and a number
just below the greatest double may come out infinite.

* `takeDigits`, `Spelling.kept`: the digits that fit, and the exponent of ten that belongs to them;
* `powerOfTen`: the powers of ten as doubles;
* `scale`: an integer times a power of ten, step by step;
* `Spelling.scaled`: the double that a written number is read as.
-/

namespace StoreGateway.Number

open StoreGateway.Text

/-! ## Digits -/

/-- Takes digits behind `n` as long as sixty-four bits hold them, and gives back those left over. -/
def takeDigits (n : Nat) : List Char → Nat × List Char
  | [] => (n, [])
  | c :: cs =>
    let next := Nat.ofDigitChars 10 [c] n
    if next < Nat.pow 2 64 then takeDigits next cs else (n, c :: cs)

/--
The digits that are kept as one number, and the exponent of ten that belongs to it. Digits left over
in front of the point count as zeros, and those behind it not at all.
-/
def Spelling.kept (s : Spelling) : Nat × Int :=
  let fraction := s.fraction.getD []
  let (n, dropped) := takeDigits 0 s.whole
  let (m, rest) := takeDigits n fraction
  (m, dropped.length - (fraction.length - rest.length : Nat))

/-! ## Powers of ten -/

/-- The greatest exponent for which a power of ten is at hand. -/
def greatestPower : Nat := 308

/-- The double nearest to a power of ten that is at hand. It is a natural number. -/
def powerOfTen (k : Nat) : Nat :=
  match Binary64.ofInt (Nat.pow 10 k) with
  | .finite x => x.trunc.toNat
  | _ => 0

/-- Divides by `10 ^ k`, by the greatest power again and again until the rest is at hand. -/
def Binary64.divPowerOfTen (x : Binary64) (k : Nat) : Binary64 :=
  if k ≤ greatestPower then x.divNat (powerOfTen k)
  else if x = .finite (.zero false) ∨ x = .finite (.zero true) then x
  else (x.divNat (powerOfTen greatestPower)).divPowerOfTen (k - greatestPower)
termination_by k
decreasing_by
  simp only [greatestPower] at *
  omega

/-- `± n · 10 ^ e`, where the integer is converted first and every step is rounded. -/
def scale (negative : Bool) (n : Nat) (e : Int) : Binary64 :=
  let x := Binary64.ofRatio negative n 1
  if e < 0 then x.divPowerOfTen (-e).toNat
  else if e ≤ greatestPower then x.mulNat (powerOfTen e.toNat)
  else if n = 0 then x
  else .infinity negative

/-! ## Written numbers -/

/-- Written exponents from here on make a number infinite or zero, whatever its digits are. -/
def exponentLimit : Nat := Nat.pow 2 31

/-- The double that a written number is read as. It is infinite if the number is out of range. -/
def Spelling.scaled (s : Spelling) : Binary64 :=
  let negative : Bool := s.sign = .minus
  let (n, e) := s.kept
  match s.exponent with
  | none => scale negative n e
  | some p =>
    let k := value p.digits
    if k < exponentLimit then scale negative n (e + p.sign.apply k)
    else if n = 0 ∨ p.sign = .minus then .finite (.zero negative)
    else .infinity negative

end StoreGateway.Number
