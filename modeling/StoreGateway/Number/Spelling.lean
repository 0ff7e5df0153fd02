import StoreGateway.Number.Binary64
import StoreGateway.Text.Numeral

/-!
# Written numbers

A spelling is the parts of a written decimal number. A text starts with at most one longest
spelling, and a spelling denotes exactly one decimal, which is rounded once to a double.

* `Spelling`, `Spelling.text`: the parts and their text;
* `Spelling.scan`: the longest spelling at the front of a text, and what follows it;
* `Decimal`, `Decimal.round`: the denoted decimal and the double nearest to it.
-/

namespace StoreGateway.Number

open StoreGateway.Text

/-- `± coefficient · 10 ^ exponent`. -/
structure Decimal where
  negative : Bool
  coefficient : Nat
  exponent : Int
deriving DecidableEq, Repr

/--
The double nearest to a decimal. Outside `10 ^ -325 … 10 ^ 309` the answer is zero or infinite
whatever the digits are, and no power of ten is formed there.
-/
def Decimal.round (d : Decimal) : Binary64 :=
  let top : Int := (digits d.coefficient).length + d.exponent
  if d.coefficient = 0 ∨ top < -324 then .finite (.zero d.negative)
  else if 309 < top then .infinity d.negative
  else .ofRatio d.negative (d.coefficient * Nat.pow 10 d.exponent.toNat)
      (Nat.pow 10 (-d.exponent).toNat)

/-- The exponent part of a written number: its marker, its sign and its digits. -/
structure ExponentPart where
  marker : Char
  sign : Sign
  digits : List Char
deriving DecidableEq, Repr

/-- The parts of a written number. `fraction` is absent when there is no point. -/
structure Spelling where
  sign : Sign
  whole : List Char
  fraction : Option (List Char)
  exponent : Option ExponentPart
deriving DecidableEq, Repr

/-- The text of a sign. -/
def signText : Sign → List Char
  | .absent => []
  | .plus => ['+']
  | .minus => ['-']

def ExponentPart.text (e : ExponentPart) : List Char :=
  e.marker :: signText e.sign ++ e.digits

def isExponentMarker (c : Char) : Bool :=
  c = 'e' || c = 'E'

namespace Spelling

def text (s : Spelling) : List Char :=
  signText s.sign ++ s.whole ++ (s.fraction.elim [] ('.' :: ·)) ++
    (s.exponent.elim [] ExponentPart.text)

/-- Digits on one side of the point at least, and digits after an exponent marker. -/
def WellFormed (s : Spelling) : Prop :=
  (∀ c ∈ s.whole, c.isDigit = true) ∧
  (∀ f, s.fraction = some f → (∀ c ∈ f, c.isDigit = true) ∧ (s.whole = [] → f ≠ [])) ∧
  (s.fraction = none → s.whole ≠ []) ∧
  (∀ e, s.exponent = some e →
    isExponentMarker e.marker = true ∧ (∀ c ∈ e.digits, c.isDigit = true) ∧ e.digits ≠ [])

/-- The digits after a point, if the point belongs to the number, and the rest of the text. -/
def scanFraction (whole : List Char) : List Char → Option (List Char) × List Char
  | '.' :: cs =>
    let ds := cs.takeWhile Char.isDigit
    if whole.isEmpty && ds.isEmpty then (none, '.' :: cs) else (some ds, cs.dropWhile Char.isDigit)
  | cs => (none, cs)

/-- An exponent, if its marker is followed by digits, and the rest of the text. -/
def scanExponent : List Char → Option ExponentPart × List Char
  | m :: cs =>
    let (sign, rest) := takeSign cs
    let ds := rest.takeWhile Char.isDigit
    if isExponentMarker m && !ds.isEmpty then (some ⟨m, sign, ds⟩, rest.dropWhile Char.isDigit)
    else (none, m :: cs)
  | [] => (none, [])

/-- The longest spelling at the front of a text, and the rest of the text. -/
def scan (cs : List Char) : Option (Spelling × List Char) :=
  let (sign, afterSign) := takeSign cs
  let whole := afterSign.takeWhile Char.isDigit
  let (fraction, afterFraction) := scanFraction whole (afterSign.dropWhile Char.isDigit)
  if whole.isEmpty && fraction.isNone then none
  else
    let (exponent, rest) := scanExponent afterFraction
    some (⟨sign, whole, fraction, exponent⟩, rest)

/-- The decimal that a spelling denotes. -/
def decimal (s : Spelling) : Decimal where
  negative := s.sign = .minus
  coefficient := value (s.whole ++ s.fraction.getD [])
  exponent := (s.exponent.elim 0 fun e => e.sign.apply (value e.digits)) - (s.fraction.getD []).length

/-- The double that a spelling denotes. -/
def round (s : Spelling) : Binary64 :=
  s.decimal.round

/-- Whether the spelling has neither a point nor an exponent. -/
def isInteger (s : Spelling) : Bool :=
  s.fraction.isNone && s.exponent.isNone

end Spelling

end StoreGateway.Number
