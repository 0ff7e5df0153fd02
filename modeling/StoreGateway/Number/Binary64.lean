/-!
# Doubles

A double is a sign, a significand below `2 ^ 53` and an exponent of two, or an infinity, or not a
number. The representation is canonical, so equal values have equal representations, the two zeros
apart.

* `Finite`: the finite doubles;
* `Binary64`: all doubles;
* `Binary64.ofRatio`: the double nearest to a quotient of natural numbers, ties to even;
* `Binary64.ofInt`: conversion, rounded once;
* `Binary64.mulNat`, `Binary64.divNat`: multiplication and division by a count, each rounded once;
* `Finite.trunc`: the integer part;
* `Binary64.bits`: the interchange encoding.
-/

namespace StoreGateway.Number

/--
A significand and an exponent in canonical form: either the significand has all its fifty-three
bits or the exponent is the least one.
-/
def Canonical (significand : Nat) (exponent : Int) : Prop :=
  significand < Nat.pow 2 53 ∧ -1074 ≤ exponent ∧ exponent ≤ 971 ∧
    (Nat.pow 2 52 ≤ significand ∨ exponent = -1074)

instance (m : Nat) (e : Int) : Decidable (Canonical m e) :=
  inferInstanceAs (Decidable (_ ∧ _ ∧ _ ∧ _))

/-- The finite double `± significand · 2 ^ exponent`. -/
structure Finite where
  negative : Bool
  significand : Nat
  exponent : Int
  canonical : Canonical significand exponent
deriving DecidableEq, Repr

namespace Finite

/-- Zero, of either sign. -/
def zero (negative : Bool) : Finite :=
  ⟨negative, 0, -1074, by decide⟩

def isZero (x : Finite) : Bool :=
  x.significand = 0

/-- The magnitude as a numerator and a denominator. -/
def ratio (x : Finite) : Nat × Nat :=
  (x.significand * Nat.pow 2 x.exponent.toNat, Nat.pow 2 (-x.exponent).toNat)

/-- The value without its fraction. -/
def trunc (x : Finite) : Int :=
  let q := x.ratio.1 / x.ratio.2
  if x.negative then -(q : Int) else q

end Finite

inductive Binary64 where
  | nan
  | infinity (negative : Bool)
  | finite (x : Finite)
deriving DecidableEq, Repr

namespace Binary64

/-- The quotient of `n` by `d` to the nearest natural number, a half to the even neighbour. -/
def nearest (n d : Nat) : Nat :=
  let q := n / d
  let r := n % d
  if 2 * r < d then q
  else if d < 2 * r then q + 1
  else q + q % 2

/--
The exponent at which `n / d` is rounded: the one that leaves fifty-three bits before the point,
but not less than the least exponent.
-/
def roundingExponent (n d : Nat) : Int :=
  let e : Int := (n.log2 : Int) - d.log2 - 53
  let e :=
    if n * Nat.pow 2 (-e).toNat < Nat.pow 2 53 * (d * Nat.pow 2 e.toNat) then e else e + 1
  max e (-1074)

/-- A rounded significand, which may have reached `2 ^ 53`; infinite beyond the greatest double. -/
def pack (negative : Bool) (m : Nat) (e : Int) : Binary64 :=
  let (m, e) := if m = Nat.pow 2 53 then (Nat.pow 2 52, e + 1) else (m, e)
  if h : Canonical m e then finite ⟨negative, m, e, h⟩ else infinity negative

/-- The double nearest to `± n / d`. -/
def ofRatio (negative : Bool) (n d : Nat) : Binary64 :=
  if n = 0 then finite (Finite.zero negative)
  else
    let e := roundingExponent n d
    pack negative (nearest (n * Nat.pow 2 (-e).toNat) (d * Nat.pow 2 e.toNat)) e

def ofInt (i : Int) : Binary64 :=
  ofRatio (i < 0) i.natAbs 1

/-- The quotient by a count. Nothing divided by no parts is not a number. -/
def divNat (x : Binary64) (k : Nat) : Binary64 :=
  match x with
  | nan => nan
  | infinity s => infinity s
  | finite x =>
    if k = 0 then if x.isZero then nan else infinity x.negative
    else ofRatio x.negative x.ratio.1 (x.ratio.2 * k)

/-- The product with a count. Infinity taken no times is not a number. -/
def mulNat (x : Binary64) (k : Nat) : Binary64 :=
  match x with
  | nan => nan
  | infinity s => if k = 0 then nan else infinity s
  | finite x => ofRatio x.negative (x.ratio.1 * k) x.ratio.2

/-- The interchange encoding; not a number has its usual quiet form. -/
def bits : Binary64 → Nat
  | nan => 0x7FF8000000000000
  | infinity s => (if s then Nat.pow 2 63 else 0) + 0x7FF0000000000000
  | finite x =>
    (if x.negative then Nat.pow 2 63 else 0) +
      if x.significand < Nat.pow 2 52 then x.significand
      else (x.exponent + 1075).toNat * Nat.pow 2 52 + (x.significand - Nat.pow 2 52)

end Binary64

end StoreGateway.Number
