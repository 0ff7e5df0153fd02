import StoreGateway.Number.Spelling

/-!
# The shortest spelling of a double

A finite double is written with the fewest digits that read back as it; of two such decimals the
nearer one is taken, and of two equally near ones the even one. Every answer has been read back
before it is given: a double that no decimal of seventeen digits gives back would be written out
in full.

* `Layout`: which decimal exponents are written without an exponent part;
* `Layout.spell`: digits and a decimal exponent as a spelling;
* `Layout.shortest`: the shortest spelling of a finite double.
-/

namespace StoreGateway.Number

open StoreGateway.Text

/-- The decimal exponents of the first digit for which a number is written positionally. -/
structure Layout where
  least : Int
  greatest : Int
deriving DecidableEq, Repr

/-- Digits without the zeros at their end, of which the first digit stays. -/
def stripZeros (ds : List Char) : List Char :=
  ds.take 1 ++ ((ds.drop 1).reverse.dropWhile (· = '0')).reverse

/--
The digits `ds`, the first of which counts units of `10 ^ e`. A positional number always has a
fraction.
-/
def Layout.spell (l : Layout) (sign : Sign) (ds : List Char) (e : Int) : Spelling :=
  if l.least ≤ e ∧ e ≤ l.greatest then
    if e < 0 then ⟨sign, ['0'], some (List.replicate (-e - 1).toNat '0' ++ ds), none⟩
    else
      let n := e.toNat + 1
      let fraction := ds.drop n
      ⟨sign, ds.take n ++ List.replicate (n - ds.length) '0',
        some (if fraction.isEmpty then ['0'] else fraction), none⟩
  else
    ⟨sign, ds.take 1, if ds.length ≤ 1 then none else some (ds.drop 1),
      some ⟨'e', if e < 0 then .minus else .plus, digits e.natAbs⟩⟩

/-- `coefficient · 10 ^ exponent`, written without the zeros at the end of the coefficient. -/
def Layout.spellDecimal (l : Layout) (sign : Sign) (coefficient : Nat) (exponent : Int) : Spelling :=
  let ds := digits coefficient
  l.spell sign (stripZeros ds) (exponent + ds.length - 1)

namespace Finite

def sign (x : Finite) : Sign :=
  if x.negative then .minus else .absent

/-- The decimal exponent of the first digit of a positive quotient. -/
def firstExponent (n d : Nat) : Int :=
  if d ≤ n then (digits (n / d)).length - 1
  else -((digits ((d - 1) / n)).length : Int)

/--
The neighbours of a quotient among the multiples of `10 ^ s`, the nearer one first and of two
equally near ones the even one.
-/
def neighbours (n d : Nat) (s : Int) : List Nat :=
  let n := n * Nat.pow 10 (-s).toNat
  let d := d * Nat.pow 10 s.toNat
  let q := n / d
  let r := n % d
  if 2 * r < d ∨ (2 * r = d ∧ q % 2 = 0) then [q, q + 1] else [q + 1, q]

/-- The decimals tried for a positive quotient, from one digit to seventeen. -/
def candidates (n d : Nat) : List (Nat × Int) :=
  (List.range 17).flatMap fun (k : Nat) =>
    let s := firstExponent n d - (k : Int)
    (neighbours n d s).map fun q => (q, s)

/-- All digits of a finite double as a coefficient and an exponent of ten. -/
def exact (x : Finite) : Nat × Int :=
  if x.exponent < 0 then (x.significand * Nat.pow 5 (-x.exponent).toNat, x.exponent)
  else (x.significand * Nat.pow 2 x.exponent.toNat, 0)

end Finite

/-- The first candidate that reads back as `x`, and all its digits if there is none. -/
def Layout.shortest (l : Layout) (x : Finite) : Spelling :=
  if x.isZero then l.spell x.sign ['0'] 0
  else
    let spellings := (Finite.candidates x.ratio.1 x.ratio.2).map fun c => l.spellDecimal x.sign c.1 c.2
    match spellings.find? fun s => s.round = .finite x with
    | some s => s
    | none => l.spellDecimal x.sign x.exact.1 x.exact.2

end StoreGateway.Number
